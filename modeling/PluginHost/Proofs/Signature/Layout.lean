import PluginHost.Crypto.Ed25519
import PluginHost.Proofs.Json.Writing
import PluginHost.Signature.Basic

/-!
# Layout plays no part

Two texts of a document may differ in white space, in the escapes that its strings and keys
are written with, and in the order in which objects have their members. As long as no object
repeats a key, both have the same canonical form or both have none, and so a signature holds
for one exactly if it holds for the other.

* `Doc.Reordered` relates documents whose objects have their members in different orders.
* `Doc.NoRepeats` says that no object repeats a key.

Results:
1. `Doc.Reordered.canonical_eq`: the canonical form does not depend on the order.
2. `verdict_ignores_layout`: nor does the check of a record on any layout.
-/

namespace PluginHost.Json

open Utf16 (ofChars)

/-! ## Definitions -/

/-- The documents differ only in the order of members, in objects at any depth. -/
inductive Doc.Reordered : Doc → Doc → Prop
  | refl (d : Doc) : Reordered d d
  | trans {d e f : Doc} : Reordered d e → Reordered e f → Reordered d f
  | members {ms ns : List (List UInt16 × Doc)} : ms.Perm ns → Reordered (.object ms) (.object ns)
  | item {d e : Doc} (before after : List Doc) : Reordered d e →
      Reordered (.array (before ++ d :: after)) (.array (before ++ e :: after))
  | member {d e : Doc} (k : List UInt16) (before after : List (List UInt16 × Doc)) :
      Reordered d e →
      Reordered (.object (before ++ (k, d) :: after)) (.object (before ++ (k, e) :: after))

/-- No object repeats a key, at any depth. -/
inductive Doc.NoRepeats : Doc → Prop
  | null : NoRepeats .null
  | bool (b : Bool) : NoRepeats (.bool b)
  | number (l : Literal) : NoRepeats (.number l)
  | string (us : List UInt16) : NoRepeats (.string us)
  | array {items : List Doc} : (∀ d ∈ items, NoRepeats d) → NoRepeats (.array items)
  | object {members : List (List UInt16 × Doc)} : (members.map Prod.fst).Nodup →
      (∀ m ∈ members, NoRepeats m.2) → NoRepeats (.object members)

section Reordered

variable {d e : Doc} {depth : Nat} {ms ns : List (List UInt16 × Doc)}
  {as : List (String × Value)}

/-! ## Repeated keys -/

theorem Doc.Reordered.noRepeats (h : d.Reordered e) (unique : d.NoRepeats) : e.NoRepeats := by
  induction h with
  | refl d => exact unique
  | trans _ _ ih ih' => exact ih' (ih unique)
  | members perm =>
    cases unique with
    | object keys values =>
      exact .object ((perm.map Prod.fst).nodup_iff.mp keys)
        fun m hm => values m (perm.mem_iff.mpr hm)
  | item before after _ ih =>
    cases unique with
    | array values =>
      obtain ⟨front, here⟩ := List.forall_mem_append.mp values
      obtain ⟨here, back⟩ := List.forall_mem_cons.mp here
      exact .array (List.forall_mem_append.mpr ⟨front, List.forall_mem_cons.mpr ⟨ih here, back⟩⟩)
  | member k before after _ ih =>
    cases unique with
    | object keys values =>
      obtain ⟨front, here⟩ := List.forall_mem_append.mp values
      obtain ⟨here, back⟩ := List.forall_mem_cons.mp here
      refine .object (by simpa using keys) ?_
      exact List.forall_mem_append.mpr ⟨front, List.forall_mem_cons.mpr ⟨ih here, back⟩⟩

theorem MembersDenote.keys (h : MembersDenote ms as) :
    ms.map Prod.fst = as.map fun m => ofChars m.1.toList := by
  induction as generalizing ms with
  | nil =>
    cases h
    rfl
  | cons a as ih =>
    cases h with
    | cons _ further => simp [ih further]

/-- Keys of different units are different. -/
theorem MembersDenote.nodup (h : MembersDenote ms as) (unique : (ms.map Prod.fst).Nodup) :
    (as.map Prod.fst).Nodup := by
  have units : as.map (fun m => ofChars m.1.toList) =
      (as.map Prod.fst).map fun k => ofChars k.toList := by
    rw [List.map_map]
    rfl
  rw [h.keys, units] at unique
  exact unique.of_map _

/-! ## Members in another order -/

/-- Members in another order stand for the same members in another order, or both for
nothing. -/
theorem namedValues?_perm (depth : Nat) (perm : ms.Perm ns) :
    namedValues? depth ms = none ∧ namedValues? depth ns = none ∨
    ∃ as bs, namedValues? depth ms = some as ∧ namedValues? depth ns = some bs ∧ as.Perm bs := by
  induction perm with
  | nil => exact .inr ⟨[], [], rfl, rfl, .nil⟩
  | cons m _ ih =>
    obtain ⟨k, d⟩ := m
    simp only [namedValues?]
    cases string? k with
    | none => exact .inl ⟨rfl, rfl⟩
    | some k =>
      cases d.value? depth with
      | none => exact .inl ⟨rfl, rfl⟩
      | some v =>
        rcases ih with ⟨none, none'⟩ | ⟨as, bs, some, some', perm⟩
        · exact .inl (by simp [none, none'])
        · exact .inr ⟨_, _, by simp [some], by simp [some'], perm.cons (k, v)⟩
  | swap m n ms =>
    obtain ⟨k, d⟩ := m
    obtain ⟨l, e⟩ := n
    simp only [namedValues?]
    cases string? k <;> cases string? l <;> cases d.value? depth <;> cases e.value? depth <;>
      cases namedValues? depth ms <;> simp
    exact .swap _ _ _
  | trans _ _ ih ih' =>
    rcases ih with ⟨none, none'⟩ | ⟨as, bs, some, some', perm⟩
    · rcases ih' with ⟨-, none''⟩ | ⟨_, _, some, -, -⟩
      · exact .inl ⟨none, none''⟩
      · exact absurd (none'.symm.trans some) (by simp)
    · rcases ih' with ⟨none, -⟩ | ⟨cs, ds, same, some'', perm'⟩
      · exact absurd (none.symm.trans some') (by simp)
      · cases some'.symm.trans same
        exact .inr ⟨as, ds, some, some'', perm.trans perm'⟩

/-- The canonical form of an object does not depend on the order of its members if no key is
repeated. -/
theorem canonical_perm {as bs : List (String × Value)} (perm : as.Perm bs)
    (unique : (as.map Prod.fst).Nodup) :
    (Value.object as).canonical = (Value.object bs).canonical := by
  refine congrArg Value.object ((sorted_sortMembers _).ext (sorted_sortMembers _) fun q => ?_)
  rw [member?_sortMembers, member?_sortMembers, member?_canonicalMembers,
    member?_canonicalMembers, member?_perm perm unique]

/-! ## Documents in another order -/

theorem canonicalItems_values? (ds : List Doc) :
    (values? depth (d :: ds)).map canonicalItems = ((d.value? depth).map Value.canonical).bind
      fun v => ((values? depth ds).map canonicalItems).map (v :: ·) := by
  rw [values?]
  cases d.value? depth with
  | none => rfl
  | some v => cases values? depth ds <;> rfl

theorem canonicalMembers_namedValues? (k : List UInt16) (ms : List (List UInt16 × Doc)) :
    (namedValues? depth ((k, d) :: ms)).map canonicalMembers = (string? k).bind fun k =>
      ((d.value? depth).map Value.canonical).bind
        fun v => ((namedValues? depth ms).map canonicalMembers).map ((k, v) :: ·) := by
  rw [namedValues?]
  cases string? k with
  | none => rfl
  | some k =>
    cases d.value? depth with
    | none => rfl
    | some v => cases namedValues? depth ms <;> rfl

/-- An item in the place of another that has the same canonical form. -/
theorem canonicalItems_congr (depth : Nat) (before after : List Doc)
    (same : (d.value? depth).map Value.canonical = (e.value? depth).map Value.canonical) :
    (values? depth (before ++ d :: after)).map canonicalItems =
      (values? depth (before ++ e :: after)).map canonicalItems := by
  induction before with
  | nil => rw [List.nil_append, List.nil_append, canonicalItems_values?, same,
      canonicalItems_values?]
  | cons _ before ih => rw [List.cons_append, List.cons_append, canonicalItems_values?, ih,
      canonicalItems_values?]

/-- A member's document in the place of another that has the same canonical form. -/
theorem canonicalMembers_congr (depth : Nat) (k : List UInt16)
    (before after : List (List UInt16 × Doc))
    (same : (d.value? depth).map Value.canonical = (e.value? depth).map Value.canonical) :
    (namedValues? depth (before ++ (k, d) :: after)).map canonicalMembers =
      (namedValues? depth (before ++ (k, e) :: after)).map canonicalMembers := by
  induction before with
  | nil => rw [List.nil_append, List.nil_append, canonicalMembers_namedValues?, same,
      canonicalMembers_namedValues?]
  | cons _ before ih => rw [List.cons_append, List.cons_append, canonicalMembers_namedValues?, ih,
      canonicalMembers_namedValues?]

/-- The canonical form does not depend on the order of members. -/
theorem Doc.Reordered.canonical_eq (h : d.Reordered e) (unique : d.NoRepeats) :
    (d.value? depth).map Value.canonical = (e.value? depth).map Value.canonical := by
  -- Without repeated keys the order of the members does not say which value counts.
  induction h generalizing depth with
  | refl d => rfl
  | trans first _ ih ih' => exact (ih unique).trans (ih' (first.noRepeats unique))
  | members perm =>
    cases unique with
    | object keys _ =>
      cases depth with
      | zero => rfl
      | succ depth =>
        simp only [Doc.value?]
        rcases namedValues?_perm depth perm with
          ⟨none, none'⟩ | ⟨as, bs, some, some', perm⟩
        · rw [none, none']
        · have distinct := (denote_of_namedValues? _ some).nodup keys
          rw [some, some']
          exact congrArg Option.some (canonical_perm perm distinct)
  | item before after _ ih =>
    cases unique with
    | array values =>
      cases depth with
      | zero => rfl
      | succ depth =>
        have items := canonicalItems_congr depth before after (ih (values _ (by simp)))
        simpa [Doc.value?, Option.map_map, Function.comp_def, Value.canonical] using
          congrArg (Option.map Value.array) items
  | member k before after _ ih =>
    cases unique with
    | object _ values =>
      cases depth with
      | zero => rfl
      | succ depth =>
        have members := canonicalMembers_congr depth k before after
          (ih (values (k, _) (by simp)))
        simpa [Doc.value?, Option.map_map, Function.comp_def, Value.canonical] using
          congrArg (Option.map fun ms => Value.object (sortMembers ms)) members

end Reordered

/-! ## Two texts of a document -/

namespace Relaid

def literal : Literal :=
  ⟨false, ['1'], some ['5', '0'], none, integerPart_digit rfl, by simp [Digits]; decide⟩

/-- A text without white space. -/
def plain : String :=
  "\x7b\"b\":1.50,\"a\":\"A\"\x7d"

def relaid : String :=
  " \x7b\"\\u0061\":\"\\u0041\", \"b\":1.50 \x7d"

def doc : Doc :=
  .object [([0x62], .number literal), ([0x61], .string [0x41])]

def doc' : Doc :=
  .object [([0x61], .string [0x41]), ([0x62], .number literal)]

theorem noRepeats : doc.NoRepeats := by
  refine .object (by decide) fun m hm => ?_
  rcases List.mem_cons.mp hm with rfl | hm
  · exact .number literal
  · rw [List.mem_singleton.mp hm]
    exact .string _

theorem reordered : doc.Reordered doc' :=
  .members (.swap _ _ _)

theorem isText_plain : doc.IsText (Utf8.bytesOf plain) := by
  have b := IsMember.mk (.char 'b' (by decide)) .nil .nil (.number literal)
  have a := IsMember.mk (.char 'a' (by decide)) .nil .nil (.string (.char 'A' (by decide)))
  have members := Spells.members .nil b (.member .nil .nil a (.close .nil))
  exact members.isText .nil .nil (by decide +kernel)

theorem isText_relaid : doc'.IsText (Utf8.bytesOf relaid) := by
  have space : Blank [' '] := by simp [Blank]
  have small : Content [0x61] ['\\', 'u', '0', '0', '6', '1'] :=
    .unit ⟨0, 0, 6, 1, .inl rfl, .inl rfl, .inl rfl, .inl rfl, rfl⟩ .nil
  have capital : Content [0x41] ['\\', 'u', '0', '0', '4', '1'] :=
    .unit ⟨0, 0, 4, 1, .inl rfl, .inl rfl, .inl rfl, .inl rfl, rfl⟩ .nil
  have a := IsMember.mk small .nil .nil (.string capital)
  have b := IsMember.mk (.char 'b' (by decide)) .nil .nil (.number literal)
  have members := Spells.members .nil a (.member .nil space b (.close space))
  exact members.isText space .nil (by decide +kernel)

end Relaid

end PluginHost.Json

namespace PluginHost.Signature

open Json (Doc canonicalBytes)

section Records

variable {a b : List UInt8}

/-- Both have no canonical form, or both have the same. -/
theorem forms_of_toOption_eq (same : (canonicalBytes a).toOption = (canonicalBytes b).toOption) :
    (∃ x, canonicalBytes a = .error x) ∧ (∃ y, canonicalBytes b = .error y) ∨
      ∃ c, canonicalBytes a = .ok c ∧ canonicalBytes b = .ok c := by
  cases formA : canonicalBytes a with
  | error x =>
    cases formB : canonicalBytes b with
    | error y => exact .inl ⟨⟨x, rfl⟩, ⟨y, rfl⟩⟩
    | ok c => simp [formA, formB, Except.toOption] at same
  | ok c =>
    cases formB : canonicalBytes b with
    | error y => simp [formA, formB, Except.toOption] at same
    | ok c' =>
      rw [formA, formB] at same
      cases same
      exact .inr ⟨c, rfl, rfl⟩

/-- The decision on a record depends on its manifest's canonical form only. -/
theorem verdict_congr (scheme : Scheme) (signature key : List UInt8)
    (same : (canonicalBytes a).toOption = (canonicalBytes b).toOption) :
    Record.verdict scheme ⟨a, signature, key⟩ = Record.verdict scheme ⟨b, signature, key⟩ := by
  rcases forms_of_toOption_eq same with ⟨⟨x, formA⟩, y, formB⟩ | ⟨c, formA, formB⟩ <;>
    simp only [Record.verdict, formA, formB]

end Records

/-- The check of a record, on any two layouts of its manifest, whatever scheme decides over
signatures. If no object of the document repeats a key, either both texts have no canonical
form or both have the same, and under any signature and key the outcomes are equal, reasons
included. -/
theorem verdict_ignores_layout {d e : Doc} {a b : List UInt8} (unique : d.NoRepeats)
    (reordered : d.Reordered e) (ha : d.IsText a) (hb : e.IsText b) :
    ((∃ x, canonicalBytes a = .error x) ∧ (∃ y, canonicalBytes b = .error y) ∨
      ∃ c, canonicalBytes a = .ok c ∧ canonicalBytes b = .ok c) ∧
    ∀ (scheme : Scheme) (signature key : List UInt8),
      Record.verdict scheme ⟨a, signature, key⟩ = Record.verdict scheme ⟨b, signature, key⟩ := by
  have form {d : Doc} {raw : List UInt8} (text : d.IsText raw) : (canonicalBytes raw).toOption =
      ((d.value? Json.depthLimit).map Json.Value.canonical).map Json.Value.bytes := by
    rw [← text.ofBytes, canonicalBytes]
    cases Json.Value.ofBytes raw <;> rfl
  have same : (canonicalBytes a).toOption = (canonicalBytes b).toOption := by
    rw [form ha, form hb, reordered.canonical_eq unique]
  exact ⟨forms_of_toOption_eq same,
    fun scheme signature key => verdict_congr scheme signature key same⟩

/-- Two layouts of a manifest are checked alike. -/
theorem relaid_checked_alike :
    (Json.Relaid.doc.NoRepeats ∧ Json.Relaid.doc.Reordered Json.Relaid.doc' ∧
      Json.Relaid.doc.IsText (Utf8.bytesOf Json.Relaid.plain) ∧
      Json.Relaid.doc'.IsText (Utf8.bytesOf Json.Relaid.relaid)) ∧
    Record.verdict Ed25519.verify
        ⟨Utf8.bytesOf Json.Relaid.plain, Base64.encode (List.replicate 64 0),
          Base64.encode (List.replicate 32 0)⟩ =
      Record.verdict Ed25519.verify
        ⟨Utf8.bytesOf Json.Relaid.relaid, Base64.encode (List.replicate 64 0),
          Base64.encode (List.replicate 32 0)⟩ := by
  refine ⟨⟨Json.Relaid.noRepeats, Json.Relaid.reordered, Json.Relaid.isText_plain,
    Json.Relaid.isText_relaid⟩, ?_⟩
  exact (verdict_ignores_layout Json.Relaid.noRepeats Json.Relaid.reordered
    Json.Relaid.isText_plain Json.Relaid.isText_relaid).2 _ _ _

end PluginHost.Signature
