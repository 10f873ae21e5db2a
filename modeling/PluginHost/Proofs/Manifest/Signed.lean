import PluginHost.Proofs.Json.Skipping
import PluginHost.Proofs.Json.Writing
import PluginHost.Proofs.Manifest.Value

/-!
# What is signed is what is used

A manifest is read in one go from its text, while its signature covers the canonical form of
the document that the text is. Both come to the same manifest.

Results:
1. `read_gives`: the value of a field is read as what its document stands for.
2. `ofBytes_eq`: a text is read as the manifest of its document.
3. `canonical_manifest`: a manifest that is read from a text with a canonical form is read from
   the canonical form as well.
-/

namespace PluginHost

open Json (Cursor Doc Value Spells Blank Content Denotes ItemsDenote MembersDenote MoreItems
  MoreMembers Gives Passes Avoids isNumeric)
open Utf16 (ofChars)

namespace Manifest

/-! ## Values of fields -/

section Values

variable {c : Cursor} {e : Doc} {v : Value} {w t rest : List Char} {wanted : String}

theorem content_gives {s : String} {t : List Char} (content : Content (ofChars s.toList) t)
    (h : c.At (t ++ '"' :: rest)) : Gives c.string (some s) rest := by
  have gives := content.gives h
  rwa [Utf16.chars?_ofChars, Option.map_some, String.ofList_toList] at gives

/-- A string is read, and nothing else is. -/
theorem text_gives (blank : Blank w) (spells : Spells e t) (denotes : Denotes e v)
    (h : c.At (w ++ (t ++ rest))) : Gives (c.text wanted) v.text? rest := by
  have h := h.skipSpace blank spells.avoids
  unfold Cursor.text
  by_cases string : ∃ us, e = .string us
  · obtain ⟨us, rfl⟩ := string
    cases denotes with
    | string s =>
      cases spells with
      | string content =>
        rw [List.cons_append, List.append_assoc] at h
        simp only [h.peek?_cons]
        exact content_gives content h.advance
  · have nothing : v.text? = none := by
      cases denotes with
      | string s => exact absurd ⟨_, rfl⟩ string
      | _ => rfl
    obtain ⟨x, s, rfl, opens⟩ := spells.opens
    have other : ¬ x.toNat = 0x22 := by
      intro quote
      obtain rfl : x = '"' := Char.toNat_inj.mp quote
      exact string opens.string
    rw [nothing]
    simp only [h.peek?_cons, other, ↓reduceIte]
    exact Gives.error

/-- Null or a string is read, and nothing else is. -/
theorem optional_gives (blank : Blank w) (spells : Spells e t) (denotes : Denotes e v)
    (h : c.At (w ++ (t ++ rest))) : Gives (c.text? wanted) v.optional? rest := by
  have h := h.skipSpace blank spells.avoids
  unfold Cursor.text?
  by_cases null : e = .null
  · subst null
    cases denotes
    cases spells
    simp only [h.peek?_cons, ↓reduceIte]
    exact (h.advance.word).gives fun _ => rfl
  · have value : v.optional? = v.text?.map some := by
      cases denotes with
      | null => exact absurd rfl null
      | _ => rfl
    have other : ¬ c.skipSpace.peek? = some 'n' := by
      obtain ⟨x, s, rfl, opens⟩ := spells.opens
      rw [h.peek?_cons, Option.some.injEq]
      rintro rfl
      exact null opens.null
    simp only [other, ↓reduceIte, value]
    exact (text_gives Blank.nil spells denotes h).map fun _ _ => rfl

theorem textsFrom_close {first : Bool} {fuel : Nat}
    (h : Gives (c.nextItem first) (some false) (']' :: rest)) :
    Gives (Cursor.textsFrom wanted (fuel + 1) first c) (some []) rest := by
  obtain ⟨c₁, next, h₁⟩ := h
  rw [Cursor.textsFrom, next]
  exact Gives.ok h₁.advance

theorem textsFrom_item {s : List Char} {first : Bool} {fuel : Nat} {ss? : Option (List String)}
    (spells : Spells e t) (denotes : Denotes e v)
    (h : Gives (c.nextItem first) (some true) (t ++ s))
    (further : ∀ c : Cursor, c.At s → Gives (Cursor.textsFrom wanted fuel false c) ss? rest) :
    Gives (Cursor.textsFrom wanted (fuel + 1) first c)
      (v.text?.bind fun s => ss?.map (s :: ·)) rest := by
  obtain ⟨c₁, next, h₁⟩ := h
  rw [Cursor.textsFrom, next]
  refine (text_gives Blank.nil spells denotes h₁).bind fun s c₂ h₂ => ?_
  rw [Option.map_eq_bind]
  exact (further c₂ h₂).bind fun ss c₃ h₃ => Gives.ok h₃

theorem mapM_text?_cons (v : Value) (vs : List Value) : (v :: vs).mapM Value.text? =
    v.text?.bind fun s => (vs.mapM Value.text?).map (s :: ·) := by
  rw [List.mapM_cons]
  cases v.text? with
  | none => rfl
  | some s => cases vs.mapM Value.text? <;> rfl

theorem moreTexts_give {es : List Doc} {vs : List Value} {ts : List Char} {fuel : Nat}
    (more : MoreItems es ts) (denote : ItemsDenote es vs) (enough : ts.length < fuel)
    (h : c.At (ts ++ rest)) :
    Gives (Cursor.textsFrom wanted fuel false c) (vs.mapM Value.text?) rest := by
  induction es generalizing vs ts fuel c with
  | nil =>
    cases denote
    cases more with
    | close blank =>
      obtain ⟨fuel, rfl⟩ : ∃ n, fuel = n + 1 := ⟨fuel - 1, by omega⟩
      rw [List.append_assoc] at h
      exact textsFrom_close (Json.nextItem_close blank h)
  | cons e es ih =>
    cases denote with
    | cons one others =>
      cases more with
      | item blank blank' spells further =>
        obtain ⟨fuel, rfl⟩ : ∃ n, fuel = n + 1 := ⟨fuel - 1, by omega⟩
        simp only [List.cons_append, List.append_assoc] at h
        simp only [List.length_cons, List.length_append] at enough
        rw [mapM_text?_cons]
        exact textsFrom_item spells one (Json.nextItem_comma blank blank' spells h)
          fun _ h => ih further others (by omega) h

/-- An array of strings is read, and nothing else is. -/
theorem texts_gives (blank : Blank w) (spells : Spells e t) (denotes : Denotes e v)
    (h : c.At (w ++ (t ++ rest))) : Gives c.texts v.texts? rest := by
  have h := h.skipSpace blank spells.avoids
  unfold Cursor.texts
  by_cases array : ∃ es, e = .array es
  · obtain ⟨es, rfl⟩ := array
    cases denotes with
    | array denote =>
      have steps : 2 ≤ c.skipSpace.steps := by simp [Cursor.steps]
      obtain ⟨fuel, fueled⟩ : ∃ n, c.skipSpace.steps = n + 1 := ⟨c.skipSpace.steps - 1, by omega⟩
      have enough : fuel = 2 * (t ++ rest).length + 1 := by
        rw [Cursor.steps, h.length] at fueled
        omega
      cases spells with
      | noItems blank' =>
        cases denote
        simp only [List.cons_append, List.append_assoc] at h
        simp only [h.peek?_cons, ↓reduceIte, fueled]
        exact textsFrom_close (Json.nextItem_close blank' h.advance)
      | items blank' spells more =>
        cases denote with
        | cons one others =>
          simp only [List.cons_append, List.append_assoc] at h enough
          simp only [List.length_cons, List.length_append] at enough
          simp only [h.peek?_cons, ↓reduceIte, fueled, Value.texts?]
          rw [mapM_text?_cons]
          exact textsFrom_item spells one (Json.nextItem_first blank' spells h.advance)
            fun _ h => moreTexts_give more others (by omega) h
  · have nothing : v.texts? = none := by
      cases denotes with
      | array _ => exact absurd ⟨_, rfl⟩ array
      | _ => rfl
    have other : ¬ c.skipSpace.peek? = some '[' := by
      obtain ⟨x, s, rfl, opens⟩ := spells.opens
      rw [h.peek?_cons, Option.some.injEq]
      rintro rfl
      exact array opens.array
    rw [nothing]
    simp only [other, ↓reduceIte]
    exact Gives.error

/-- The value of a field is read as what its document stands for. -/
theorem read_gives (d : Draft) (f : Field) (blank : Blank w) (spells : Spells e t)
    (denotes : Denotes e v) (h : c.At (w ++ (t ++ rest))) :
    Gives (d.read f c) (d.fill? f v) rest := by
  cases f with
  | id => exact (text_gives blank spells denotes h).map fun _ _ => rfl
  | name => exact (text_gives blank spells denotes h).map fun _ _ => rfl
  | version => exact (text_gives blank spells denotes h).map fun _ _ => rfl
  | description => exact (optional_gives blank spells denotes h).map fun _ _ => rfl
  | capabilities => exact (texts_gives blank spells denotes h).map fun _ _ => rfl

end Values

/-! ## The object form -/

section Members

variable {c : Cursor} {d : Draft} {e : Doc} {v : Value} {rest : List Char} {fuel : Nat}
  {first : Bool} {ns : List (String × Value)}

theorem membersFrom_close (h : Gives (c.nextKey first) (some false) ('}' :: rest)) :
    Gives (membersFrom (fuel + 1) first d c) (d.take? []) rest := by
  obtain ⟨c₁, next, h₁⟩ := h
  rw [membersFrom, next]
  exact Gives.ok h₁.advance

/-- One more member of the object: the value of a field that has not been read, or of no
interest. -/
theorem membersFrom_member {k : String} {s t w w' u : List Char}
    (content : Content (ofChars k.toList) s) (blank : Blank w) (blank' : Blank w')
    (spells : Spells e t) (denotes : Denotes e v) (ends : Avoids isNumeric u)
    (h : Gives (c.nextKey first) (some true) (s ++ '"' :: (w ++ ':' :: (w' ++ (t ++ u)))))
    (further : ∀ (d : Draft) (c : Cursor), c.At u →
      Gives (membersFrom fuel false d c) (d.take? ns) rest) :
    Gives (membersFrom (fuel + 1) first d c) (d.take? ((k, v) :: ns)) rest := by
  obtain ⟨c₁, next, h₁⟩ := h
  obtain ⟨c₂, key, h₂⟩ := content_gives content h₁
  obtain ⟨c₃, colon, h₃⟩ := Json.colon_passes blank h₂
  rw [membersFrom, next, Draft.take?]
  simp only [bind, Except.bind, Bool.not_true, Bool.false_eq_true, ↓reduceIte, key]
  cases Field.ofKey? k with
  | none =>
    -- The value is passed over without being read, so that it may be anything.
    have enough : 2 * t.length ≤ c₃.steps := by
      rw [Cursor.steps, h₃.length]
      simp only [List.length_append]
      omega
    obtain ⟨c₄, skip, h₄⟩ := e.skips blank' spells ends enough h₃
    simp only [colon, Cursor.skip, skip]
    exact further d c₄ h₄
  | some f =>
    simp only
    split
    · exact Gives.error
    · simp only [colon]
      exact (read_gives d f blank' spells denotes h₃).bind fun d c h => further d c h

theorem moreMembers_give {ms : List (List UInt16 × Doc)} {ts : List Char}
    (more : MoreMembers ms ts) (denote : MembersDenote ms ns) (enough : ts.length < fuel)
    (h : c.At (ts ++ rest)) : Gives (membersFrom fuel false d c) (d.take? ns) rest := by
  induction ms generalizing ns ts fuel c d with
  | nil =>
    cases denote
    cases more with
    | close blank =>
      obtain ⟨fuel, rfl⟩ : ∃ n, fuel = n + 1 := ⟨fuel - 1, by omega⟩
      rw [List.append_assoc] at h
      exact membersFrom_close (Json.nextKey_close blank h)
  | cons m ms ih =>
    cases denote with
    | cons one others =>
      cases more with
      | member blank blank' member further =>
        obtain ⟨content, before, after, spells⟩ := member
        obtain ⟨fuel, rfl⟩ : ∃ n, fuel = n + 1 := ⟨fuel - 1, by omega⟩
        simp only [List.cons_append, List.append_assoc] at h
        simp only [List.length_cons, List.length_append] at enough
        exact membersFrom_member content before after spells one further.avoids
          (Json.nextKey_comma blank blank' h) fun _ _ h => ih further others (by omega) h

/-- The object form gives the manifest of its members. -/
theorem ofMembers_gives {ms : List (List UInt16 × Doc)} {t : List Char}
    (spells : Spells (.object ms) ('{' :: t)) (denote : MembersDenote ms ns)
    (h : c.At (t ++ rest)) : Gives (ofMembers c) (ofValue? (.object ns)) rest := by
  obtain ⟨fuel, fueled, enough⟩ : ∃ n, c.steps = n + 1 ∧ t.length < n :=
    ⟨2 * (t ++ rest).length + 1, by rw [Cursor.steps, h.length], by simp; omega⟩
  have members : Gives (membersFrom c.steps true {} c) (Draft.take? {} ns) rest := by
    rw [fueled]
    cases spells with
    | noMembers blank =>
      cases denote
      rw [List.append_assoc] at h
      exact membersFrom_close (Json.nextKey_close blank h)
    | members blank member more =>
      obtain ⟨content, before, after, spells⟩ := member
      cases denote with
      | cons one others =>
        simp only [List.cons_append, List.append_assoc] at h
        simp only [List.length_cons, List.length_append] at enough
        exact membersFrom_member content before after spells one more.avoids
          (Json.nextKey_first blank h) fun _ _ h => moreMembers_give more others (by omega) h
  refine members.bind fun d c h => ?_
  dsimp only
  cases d.toManifest with
  | ok m => exact Gives.ok h
  | error f => exact Gives.error

end Members

/-! ## The array form -/

section Places

variable {c : Cursor} {d : Draft} {e : Doc} {v : Value} {rest : List Char} {fs : List Field}
  {first : Bool} {vs : List Value}

/-- Reads fields by their places and the end of the array after them. -/
def placesClosed (fs : List Field) (first : Bool) (d : Draft) (c : Cursor) :
    Except Json.Error (Draft × Cursor) := do
  let (d, c) ← placesFrom fs first d c
  c.endArray.map fun c => (d, c)

theorem endArray_passes {w : List Char} (blank : Blank w) (h : c.At (w ++ ']' :: rest)) :
    Passes c.endArray rest := by
  have h := h.skipSpace blank (Json.avoids_cons.mpr rfl)
  unfold Cursor.endArray
  simp only [h.peek?_cons]
  exact ⟨_, rfl, h.advance⟩

/-- An array with a further item does not end. -/
theorem endArray_fails {w t : List Char} (blank : Blank w) (h : c.At (w ++ ',' :: t)) :
    ∃ e, c.endArray = .error e := by
  have h := h.skipSpace blank (Json.avoids_cons.mpr rfl)
  unfold Cursor.endArray
  simp only [h.peek?_cons]
  split <;> exact ⟨_, rfl⟩

/-- The end of the array, with or without fields left. -/
theorem placesClosed_close {w : List Char} (blank : Blank w) (h : c.At (w ++ ']' :: rest)) :
    Gives (placesClosed fs first d c) (Draft.place? fs d []) rest := by
  have closed {c : Cursor} {w : List Char} (blank : Blank w) (h : c.At (w ++ ']' :: rest)) :
      Gives (c.endArray.map fun c => (d, c)) (some d) rest :=
    (endArray_passes blank h).gives fun _ => rfl
  cases fs with
  | nil => exact closed blank h
  | cons f fs =>
    have closing : Gives (c.nextItem first) (some false) (']' :: rest) :=
      Json.nextItem_close blank h
    obtain ⟨c₁, next, h₁⟩ := closing
    rw [placesClosed, placesFrom, next]
    exact closed Blank.nil h₁

/-- One more field of the array. -/
theorem placesClosed_item {f : Field} {t s : List Char} (spells : Spells e t)
    (denotes : Denotes e v) (h : Gives (c.nextItem first) (some true) (t ++ s))
    (further : ∀ (d : Draft) (c : Cursor), c.At s →
      Gives (placesClosed fs false d c) (Draft.place? fs d vs) rest) :
    Gives (placesClosed (f :: fs) first d c) (Draft.place? (f :: fs) d (v :: vs)) rest := by
  obtain ⟨c₁, next, h₁⟩ := h
  have step : placesClosed (f :: fs) first d c =
      (d.read f c₁ >>= fun x => placesClosed fs false x.1 x.2) := by
    simp only [placesClosed, placesFrom, next, bind, Except.bind]
    cases d.read f c₁ <;> rfl
  rw [step]
  exact (read_gives d f Blank.nil spells denotes h₁).bind fun d c h => further d c h

theorem morePlaces_give {es : List Doc} {ts : List Char} (more : MoreItems es ts)
    (denote : ItemsDenote es vs) (h : c.At (ts ++ rest)) :
    Gives (placesClosed fs false d c) (Draft.place? fs d vs) rest := by
  induction es generalizing vs ts fs c d with
  | nil =>
    cases denote
    cases more with
    | close blank =>
      rw [List.append_assoc] at h
      exact placesClosed_close blank h
  | cons e es ih =>
    cases denote with
    | cons one others =>
      cases more with
      | item blank blank' spells further =>
        simp only [List.cons_append, List.append_assoc] at h
        cases fs with
        | nil =>
          -- All fields have been read, and there is one more item.
          obtain ⟨x, fails⟩ := endArray_fails blank h
          exact ⟨x, by simp [placesClosed, placesFrom, bind, Except.bind, fails, Except.map]⟩
        | cons f fs =>
          exact placesClosed_item spells one (Json.nextItem_comma blank blank' spells h)
            fun _ _ h => ih further others h

/-- The manifest is made before the end of the array is read. It makes no difference, since
both a missing field and a missing end are refused. -/
theorem ofPlaces_of_closed {d? : Option Draft}
    (h : Gives (placesClosed Field.all true {} c) d? rest) :
    Gives (ofPlaces c) (d?.bind fun d => d.toManifest.toOption) rest := by
  unfold ofPlaces
  cases d? with
  | some d =>
    obtain ⟨c', closed, left⟩ := h
    obtain ⟨⟨d, c₁⟩, read, closed⟩ := bind_eq_ok_iff.mp closed
    obtain ⟨c₂, ends, same⟩ := map_eq_ok_iff.mp closed
    cases same
    rw [read]
    simp only [bind, Except.bind, Option.bind_some]
    cases d.toManifest with
    | ok m =>
      simp only [ends]
      exact Gives.ok left
    | error f => exact Gives.error
  | none =>
    obtain ⟨x, fails⟩ := h
    -- Either a field is not read, or the array goes on after the last one.
    cases read : placesFrom Field.all true {} c with
    | error y => exact Gives.error
    | ok result =>
      obtain ⟨d, c₁⟩ := result
      cases ends : c₁.endArray with
      | ok c₂ => simp [placesClosed, read, bind, Except.bind, ends, Except.map] at fails
      | error y =>
        simp only [bind, Except.bind]
        cases d.toManifest with
        | ok m =>
          simp only [ends]
          exact Gives.error
        | error f => exact Gives.error

/-- The array form gives the manifest of its items. -/
theorem ofPlaces_gives {es : List Doc} {t : List Char} (spells : Spells (.array es) ('[' :: t))
    (denote : ItemsDenote es vs) (h : c.At (t ++ rest)) :
    Gives (ofPlaces c) (ofValue? (.array vs)) rest := by
  have places : Gives (placesClosed Field.all true {} c) (Draft.place? Field.all {} vs) rest := by
    cases spells with
    | noItems blank =>
      cases denote
      rw [List.append_assoc] at h
      exact placesClosed_close blank h
    | items blank spells more =>
      cases denote with
      | cons one others =>
        simp only [List.append_assoc] at h
        exact placesClosed_item spells one (Json.nextItem_first blank spells h)
          fun _ _ h => morePlaces_give more others h
  exact ofPlaces_of_closed places

end Places

/-! ## Whole manifests -/

section Texts

variable {e : Doc} {v : Value} {raw c : List UInt8} {m : Manifest}

/-- A text is read as the manifest of its document, or refused if there is none. -/
theorem ofBytes_eq (text : e.IsText raw) (denotes : Denotes e v) :
    (ofBytes raw).toOption = ofValue? v := by
  obtain ⟨w, t, w', blank, spells, blank', text⟩ := text
  have start := (Json.at_ofBytes.mpr text).skipSpace blank spells.avoids
  unfold ofBytes
  dsimp only
  by_cases array : ∃ es, e = .array es
  · obtain ⟨es, rfl⟩ := array
    obtain ⟨x, t, rfl, rfl⟩ := spells.opens
    cases denotes with
    | array denote =>
      rw [if_pos start.peek?_cons]
      exact (ofPlaces_gives spells denote start.advance).finish blank'
  · by_cases object : ∃ ms, e = .object ms
    · obtain ⟨ms, rfl⟩ := object
      obtain ⟨x, t, rfl, rfl⟩ := spells.opens
      cases denotes with
      | object denote =>
        have bracket : ¬ some '{' = some '[' := by decide
        have brace : (some '{').any (fun x => decide (x.toNat = 0x7B)) = true := rfl
        rw [start.peek?_cons, if_neg bracket, if_pos brace]
        exact (ofMembers_gives spells denote start.advance).finish blank'
    · have nothing : ofValue? v = none := by
        cases denotes with
        | array _ => exact absurd ⟨_, rfl⟩ array
        | object _ => exact absurd ⟨_, rfl⟩ object
        | _ => rfl
      obtain ⟨x, t, rfl, opens⟩ := spells.opens
      have bracket : x ≠ '[' := by
        rintro rfl
        exact array opens.array
      have brace : ¬ x.toNat = 0x7B := by
        intro same
        obtain rfl : x = '{' := Char.toNat_inj.mp same
        exact object opens.object
      rw [start.peek?_cons, nothing]
      simp only [Option.some.injEq, bracket, Option.any_some, brace, decide_false,
        Bool.false_eq_true, ↓reduceIte]
      rfl

/-- A manifest with an escaped key and with an unknown member that is repeated. -/
def scattered : List UInt8 :=
  Utf8.bytesOf ("\x7b \"x\": [1], \"\\u0069d\": \"a.b\", \"x\": null, \"version\": \"1\"," ++
    " \"description\": null, \"capabilities\": [\"subprocess-spawn\"] \x7d")

/-- Its canonical form. -/
def gathered : List UInt8 :=
  Utf8.bytesOf ("\x7b\"capabilities\":[\"subprocess-spawn\"],\"description\":null," ++
    "\"id\":\"a.b\",\"version\":\"1\",\"x\":null\x7d")

/-- A manifest that is read from a text with a canonical form is read from the canonical form
as well. -/
theorem canonical_manifest (signed : Json.canonicalBytes raw = .ok c)
    (read : ofBytes raw = .ok m) : ofBytes c = .ok m := by
  obtain ⟨v, document, rfl⟩ := map_eq_ok_iff.mp signed
  obtain ⟨e, text, value⟩ := Json.ofBytes_eq_ok_iff.mp document
  have manifest : ofValue? v = some m := by
    rw [← ofBytes_eq text (Json.denotes_of_value? e value), read]
    rfl
  have same := ofBytes_eq v.canonical.isText_bytes v.canonical.denotes_doc
  rw [ofValue?_canonical manifest] at same
  cases again : ofBytes v.canonical.bytes with
  | error x =>
    rw [again] at same
    cases same
  | ok m' =>
    rw [again] at same
    exact congrArg Except.ok (Option.some.inj same)

/-- What is signed asks for the capability that is used. -/
theorem scattered_manifest :
    Json.canonicalBytes scattered = .ok gathered ∧
    ofBytes gathered =
      .ok { id := "a.b", version := "1", capabilities := ["subprocess-spawn"] } := by
  have signed : Json.canonicalBytes scattered = .ok gathered := by decide +kernel
  have read : ofBytes scattered =
      .ok { id := "a.b", version := "1", capabilities := ["subprocess-spawn"] } := by
    decide +kernel
  exact ⟨signed, canonical_manifest signed read⟩

end Texts

end Manifest

end PluginHost
