import PluginHost.Proofs.Json.Accepted
import PluginHost.Proofs.Json.Meaning
import PluginHost.Proofs.Json.NumberText

/-!
# What is written is read back

The compact form of a value is a text of a document, and of one that has the value's
strings, members and items. Its numbers are read back as they were if they are integers;
a real may be read as another one, but it is a number all the same.

* `Value.doc` is the document that the compact form is a text of.
* `Denotes` relates documents to values, whatever their numbers.
* `Value.Fits` says that a value does not nest too deep and has integers only.

Results:
1. `Value.spells_doc`: the compact form is a text of the value's document.
2. `Value.ofBytes_bytes`: a value that fits is read back from its bytes.
-/

namespace PluginHost.Json

open Utf16 (ofChar ofChars)

/-! ## Definitions -/

mutual

/-- The document that a value is written as. -/
noncomputable def Value.doc : Value → Doc
  | .null => .null
  | .bool b => .bool b
  | .number n => .number n.literal
  | .string s => .string (ofChars s.toList)
  | .array items => .array (docs items)
  | .object members => .object (namedDocs members)

noncomputable def docs : List Value → List Doc
  | [] => []
  | v :: vs => v.doc :: docs vs

noncomputable def namedDocs : List (String × Value) → List (List UInt16 × Doc)
  | [] => []
  | (k, v) :: ms => (ofChars k.toList, v.doc) :: namedDocs ms

end

mutual

/-- The document is one of the value, except that numbers may differ. -/
inductive Denotes : Doc → Value → Prop
  | null : Denotes .null .null
  | bool (b : Bool) : Denotes (.bool b) (.bool b)
  | number (l : Literal) (n : Number) : Denotes (.number l) (.number n)
  | string (s : String) : Denotes (.string (ofChars s.toList)) (.string s)
  | array {ds : List Doc} {vs : List Value} : ItemsDenote ds vs → Denotes (.array ds) (.array vs)
  | object {ms : List (List UInt16 × Doc)} {ns : List (String × Value)} :
      MembersDenote ms ns → Denotes (.object ms) (.object ns)

/-- The documents are those of the items. -/
inductive ItemsDenote : List Doc → List Value → Prop
  | nil : ItemsDenote [] []
  | cons {d : Doc} {v : Value} {ds : List Doc} {vs : List Value} :
      Denotes d v → ItemsDenote ds vs → ItemsDenote (d :: ds) (v :: vs)

/-- The documents are those of the members, and the units those of their keys. -/
inductive MembersDenote : List (List UInt16 × Doc) → List (String × Value) → Prop
  | nil : MembersDenote [] []
  | cons {k : String} {d : Doc} {v : Value} {ms : List (List UInt16 × Doc)}
      {ns : List (String × Value)} : Denotes d v → MembersDenote ms ns →
      MembersDenote ((ofChars k.toList, d) :: ms) ((k, v) :: ns)

end

/-- No more containers than `depth` are open at once, and all numbers are integers. -/
inductive Value.Fits : (depth : Nat) → Value → Prop
  | null {depth : Nat} : Fits depth .null
  | bool {depth : Nat} (b : Bool) : Fits depth (.bool b)
  | number {depth : Nat} {n : Number} : n.IsInteger → Fits depth (.number n)
  | string {depth : Nat} (s : String) : Fits depth (.string s)
  | array {depth : Nat} {items : List Value} :
      (∀ v ∈ items, Fits depth v) → Fits (depth + 1) (.array items)
  | object {depth : Nat} {members : List (String × Value)} :
      (∀ m ∈ members, Fits depth m.2) → Fits (depth + 1) (.object members)

/-! ## Strings -/

section Strings

theorem isHexDigit_hexDigit : ∀ n < 16, IsHexDigit n (hexDigit n) := by
  have all : ∀ n < 16, "0123456789abcdef".toList[n]? = some (hexDigit n) := by decide
  exact fun n h => .inl (all n h)

/-- A character is written so that it stands for itself. -/
theorem standsFor_escapeChar (c : Char) : StandsFor (escapeChar c) c := by
  intro us s content
  have short {x y : Char} (same : c.toNat = y.toNat) (letter : (x, y) ∈ shortEscapes) :
      Content (ofChar c ++ us) ('\\' :: x :: s) := by
    rw [Char.toNat_inj.mp same]
    exact .short letter content
  unfold escapeChar
  split
  · next same =>
    have quote : c = '"' := Char.toNat_inj.mp same
    exact short (y := '"') same (by rw [quote]; decide)
  · next same =>
    have slash : c = '\\' := Char.toNat_inj.mp same
    exact short (y := '\\') same (by rw [slash]; decide)
  · next same => exact short (y := '\x08') same (by decide)
  · next same => exact short (y := '\t') same (by decide)
  · next same => exact short (y := '\n') same (by decide)
  · next same => exact short (y := '\x0c') same (by decide)
  · next same => exact short (y := '\r') same (by decide)
  · next noQuote noSlash _ _ _ _ _ =>
    -- No short escape is left: other controls are written as units, the rest as they are.
    split
    · next control =>
      have unit : IsUnit c.toNat.toUInt16 '0' '0' (hexDigit (c.toNat / 16))
          (hexDigit (c.toNat % 16)) := by
        refine ⟨0, 0, _, _, .inl rfl, .inl rfl, isHexDigit_hexDigit _ (by omega),
          isHexDigit_hexDigit _ (by omega), ?_⟩
        rw [Utf16.toNat_toUInt16_of_lt (by omega)]
        omega
      have single : ofChar c = [c.toNat.toUInt16] := by
        rw [ofChar, if_pos (by omega)]
      rw [single]
      exact .unit unit content
    · next plain =>
      refine .plain ?_ ?_ (by omega) content
      · rintro rfl
        exact noQuote rfl
      · rintro rfl
        exact noSlash rfl

theorem content_escaped (cs : List Char) : Content (ofChars cs) (cs.flatMap escapeChar) := by
  induction cs with
  | nil => exact .nil
  | cons c cs ih => exact standsFor_escapeChar c _ _ ih

theorem string?_ofChars (s : String) : string? (ofChars s.toList) = some s := by
  simp [string?, Utf16.chars?_ofChars]

end Strings

/-! ## The compact form -/

section Compact

theorem openBrace_eq : openBrace = '{' := rfl

theorem closeBrace_eq : closeBrace = '}' := rfl

theorem isMember_compact {k : String} {d : Doc} {t : List Char} (h : Spells d t) :
    IsMember (ofChars k.toList) d (stringChars k ++ ':' :: t) := by
  have member := IsMember.mk (content_escaped k.toList) Blank.nil Blank.nil h
  simpa [stringChars, quoteMark] using member

mutual

/-- The compact form of a value is a text of its document. -/
theorem Value.spells_doc : ∀ v : Value, Spells v.doc v.compact
  | .null => .null
  | .bool true => .yes
  | .bool false => .no
  | .number n => by
    rw [Value.compact, Value.scalarChars, ← n.chars_literal]
    exact .number n.literal
  | .string s => .string (content_escaped s.toList)
  | .array [] => .noItems Blank.nil
  | .array (v :: vs) => by
    have items := Spells.items Blank.nil v.spells_doc (moreItems_compact vs)
    simpa [Value.compact, Value.doc, docs] using items
  | .object [] => .noMembers Blank.nil
  | .object ((k, v) :: ms) => by
    have members := Spells.members Blank.nil (isMember_compact (k := k) v.spells_doc)
      (moreMembers_compact ms)
    simpa [Value.compact, Value.doc, namedDocs, openBrace_eq, closeBrace_eq] using members

theorem moreItems_compact : ∀ vs : List Value, MoreItems (docs vs) (compactItems vs ++ [']'])
  | [] => .close Blank.nil
  | v :: vs => by
    have item := MoreItems.item Blank.nil Blank.nil v.spells_doc (moreItems_compact vs)
    simpa [compactItems, docs] using item

theorem moreMembers_compact : ∀ ms : List (String × Value),
    MoreMembers (namedDocs ms) (compactMembers ms ++ ['}'])
  | [] => .close Blank.nil
  | (k, v) :: ms => by
    have member := MoreMembers.member Blank.nil Blank.nil (isMember_compact (k := k) v.spells_doc)
      (moreMembers_compact ms)
    simpa [compactMembers, namedDocs] using member

end

theorem Value.bytesOf_text (v : Value) : Utf8.bytesOf v.text = v.bytes := by
  rw [text, Utf8.bytesOf, String.toList_ofList, bytes]

/-- The bytes of a value are a text of its document. -/
theorem Value.isText_bytes (v : Value) : v.doc.IsText v.bytes :=
  ⟨[], v.compact, [], Blank.nil, v.spells_doc, Blank.nil, by simp [Value.bytes, Utf8.text?_encode]⟩

end Compact

/-! ## Documents and values -/

mutual

/-- What a document stands for is a value of it. -/
theorem denotes_of_value? : ∀ (d : Doc) {depth : Nat} {v : Value}, d.value? depth = some v →
    Denotes d v
  | .null, _, _, rfl => .null
  | .bool b, _, _, rfl => .bool b
  | .number l, _, _, h => by
    obtain ⟨n, -, rfl⟩ := Option.map_eq_some_iff.mp h
    exact .number l n
  | .string us, _, _, h => by
    obtain ⟨s, text, rfl⟩ := Option.map_eq_some_iff.mp h
    obtain ⟨cs, chars, rfl⟩ := Option.map_eq_some_iff.mp text
    have string := Denotes.string (String.ofList cs)
    rwa [String.toList_ofList, ← Utf16.chars?_eq_some_iff.mp chars] at string
  | .array ds, depth + 1, _, h => by
    obtain ⟨vs, items, rfl⟩ := Option.map_eq_some_iff.mp h
    exact .array (denote_of_values? ds items)
  | .object ms, depth + 1, _, h => by
    obtain ⟨ns, members, rfl⟩ := Option.map_eq_some_iff.mp h
    exact .object (denote_of_namedValues? ms members)

theorem denote_of_values? : ∀ (ds : List Doc) {depth : Nat} {vs : List Value},
    values? depth ds = some vs → ItemsDenote ds vs
  | [], _, _, rfl => .nil
  | d :: ds, _, _, h => by
    obtain ⟨v, value, h⟩ := Option.bind_eq_some_iff.mp h
    obtain ⟨vs, further, rfl⟩ := Option.map_eq_some_iff.mp h
    exact .cons (denotes_of_value? d value) (denote_of_values? ds further)

theorem denote_of_namedValues? : ∀ (ms : List (List UInt16 × Doc)) {depth : Nat}
    {ns : List (String × Value)}, namedValues? depth ms = some ns → MembersDenote ms ns
  | [], _, _, rfl => .nil
  | (us, d) :: ms, _, _, h => by
    obtain ⟨k, text, h⟩ := Option.bind_eq_some_iff.mp h
    obtain ⟨v, value, h⟩ := Option.bind_eq_some_iff.mp h
    obtain ⟨ns, further, rfl⟩ := Option.map_eq_some_iff.mp h
    obtain ⟨cs, chars, rfl⟩ := Option.map_eq_some_iff.mp text
    have member := MembersDenote.cons (k := String.ofList cs) (denotes_of_value? d value)
      (denote_of_namedValues? ms further)
    rwa [String.toList_ofList, ← Utf16.chars?_eq_some_iff.mp chars] at member

end

mutual

/-- The document that a value is written as is one of it. -/
theorem Value.denotes_doc : ∀ v : Value, Denotes v.doc v
  | .null => .null
  | .bool b => .bool b
  | .number n => .number n.literal n
  | .string s => .string s
  | .array vs => .array (docs_denote vs)
  | .object ms => .object (namedDocs_denote ms)

theorem docs_denote : ∀ vs : List Value, ItemsDenote (docs vs) vs
  | [] => .nil
  | v :: vs => .cons v.denotes_doc (docs_denote vs)

theorem namedDocs_denote : ∀ ms : List (String × Value), MembersDenote (namedDocs ms) ms
  | [] => .nil
  | (_, v) :: ms => .cons v.denotes_doc (namedDocs_denote ms)

end

/-! ## Values that fit -/

theorem isInteger_of_integral {l : Literal} {n : Number} (h : l.Integral)
    (value : l.number? = some n) : n.IsInteger := by
  rw [Literal.number?_of_integral h] at value
  obtain ⟨-, -, range⟩ := h
  cases negative : l.negative with
  | false =>
    rw [negative] at value range
    cases value
    exact range
  | true =>
    rw [negative] at value range
    cases value
    exact range

mutual

/-- A document whose numbers are integers stands for a value that fits. -/
theorem fits_of_value? : ∀ (d : Doc) {depth : Nat} {v : Value}, d.value? depth = some v →
    (∀ l ∈ d.literals, l.Integral) → v.Fits depth
  | .null, _, _, rfl, _ => .null
  | .bool b, _, _, rfl, _ => .bool b
  | .number l, _, _, h, integral => by
    obtain ⟨n, value, rfl⟩ := Option.map_eq_some_iff.mp h
    exact .number (isInteger_of_integral (integral l (by simp [Doc.literals])) value)
  | .string us, _, _, h, _ => by
    obtain ⟨s, -, rfl⟩ := Option.map_eq_some_iff.mp h
    exact .string s
  | .array ds, depth + 1, _, h, integral => by
    obtain ⟨vs, items, rfl⟩ := Option.map_eq_some_iff.mp h
    exact .array (fit_of_values? ds items integral)
  | .object ms, depth + 1, _, h, integral => by
    obtain ⟨ns, members, rfl⟩ := Option.map_eq_some_iff.mp h
    exact .object (fit_of_namedValues? ms members integral)

theorem fit_of_values? : ∀ (ds : List Doc) {depth : Nat} {vs : List Value},
    values? depth ds = some vs → (∀ l ∈ literalsOfItems ds, l.Integral) → ∀ v ∈ vs, v.Fits depth
  | [], _, _, rfl, _ => List.forall_mem_nil _
  | d :: ds, _, _, h, integral => by
    obtain ⟨v, value, h⟩ := Option.bind_eq_some_iff.mp h
    obtain ⟨vs, further, rfl⟩ := Option.map_eq_some_iff.mp h
    obtain ⟨here, there⟩ := List.forall_mem_append.mp integral
    exact List.forall_mem_cons.mpr ⟨fits_of_value? d value here, fit_of_values? ds further there⟩

theorem fit_of_namedValues? : ∀ (ms : List (List UInt16 × Doc)) {depth : Nat}
    {ns : List (String × Value)}, namedValues? depth ms = some ns →
    (∀ l ∈ literalsOfMembers ms, l.Integral) → ∀ n ∈ ns, n.2.Fits depth
  | [], _, _, rfl, _ => List.forall_mem_nil _
  | (us, d) :: ms, _, _, h, integral => by
    obtain ⟨k, -, h⟩ := Option.bind_eq_some_iff.mp h
    obtain ⟨v, value, h⟩ := Option.bind_eq_some_iff.mp h
    obtain ⟨ns, further, rfl⟩ := Option.map_eq_some_iff.mp h
    obtain ⟨here, there⟩ := List.forall_mem_append.mp integral
    exact List.forall_mem_cons.mpr
      ⟨fits_of_value? d value here, fit_of_namedValues? ms further there⟩

end

namespace Value

variable {depth : Nat} {v : Value}

theorem values?_docs {vs : List Value} (h : ∀ v ∈ vs, v.doc.value? depth = some v) :
    values? depth (docs vs) = some vs := by
  induction vs with
  | nil => rfl
  | cons v vs ih =>
    obtain ⟨here, there⟩ := List.forall_mem_cons.mp h
    rw [docs, values?, here, ih there]
    rfl

theorem namedValues?_namedDocs {ms : List (String × Value)}
    (h : ∀ m ∈ ms, m.2.doc.value? depth = some m.2) :
    namedValues? depth (namedDocs ms) = some ms := by
  induction ms with
  | nil => rfl
  | cons m ms ih =>
    obtain ⟨here, there⟩ := List.forall_mem_cons.mp h
    rw [namedDocs, namedValues?, string?_ofChars, here, ih there]
    rfl

/-- The document of a value that fits stands for the value. -/
theorem Fits.value?_doc (h : v.Fits depth) : v.doc.value? depth = some v := by
  induction h with
  | null => rfl
  | bool b => rfl
  | number integer => rw [doc, Doc.value?, Number.number?_literal integer, Option.map_some]
  | string s => rw [doc, Doc.value?, string?_ofChars, Option.map_some]
  | array _ ih => rw [doc, Doc.value?, values?_docs ih, Option.map_some]
  | object _ ih => rw [doc, Doc.value?, namedValues?_namedDocs ih, Option.map_some]

/-- A value that fits is read back from its bytes. -/
theorem ofBytes_bytes (h : v.Fits depthLimit) : Value.ofBytes v.bytes = .ok v :=
  ofBytes_eq_ok_iff.mpr ⟨v.doc, v.isText_bytes, h.value?_doc⟩

/-- The canonical form fits as well. -/
theorem Fits.canonical (h : v.Fits depth) : v.canonical.Fits depth := by
  induction h with
  | null => exact .null
  | bool b => exact .bool b
  | number integer => exact .number integer
  | string s => exact .string s
  | array _ ih =>
    refine .array ?_
    rw [canonicalItems_eq_map]
    exact List.forall_mem_map.mpr ih
  | object _ ih =>
    refine .object fun m hm => ?_
    have there := mem_of_mem_sortMembers hm
    rw [canonicalMembers_eq_map] at there
    obtain ⟨n, hn, rfl⟩ := List.mem_map.mp there
    exact ih n hn

end Value

end PluginHost.Json
