import PluginHost.Manifest.Reader
import PluginHost.Proofs.Json.Meaning

/-!
# The manifest of a document

What a manifest says is a function of its document. An object gives each field at most once,
and in any order; an array gives the fields by their places.

* `Manifest.ofValue?` is the manifest of a document.
* `Draft.get` is what has been read of a field.

Results:
1. `Draft.fill?_eq_some_iff`: reading a field sets this field and no other.
2. `Draft.take?_eq_some_iff`: an object is read field by field, whatever the order.
3. `Manifest.ofValue?_canonical`: a document with a manifest has the same one in its canonical
   form.
-/

namespace PluginHost

open Json (Value valuesOf)

/-! ## Definitions -/

namespace Json.Value

/-- The string that the value is. -/
def text? : Value → Option String
  | .string s => some s
  | _ => none

/-- The string that the value is, if it is not null. -/
def optional? : Value → Option (Option String)
  | .null => some none
  | .string s => some (some s)
  | _ => none

/-- The strings that the value is an array of. -/
def texts? : Value → Option (List String)
  | .array items => items.mapM text?
  | _ => none

end Json.Value

namespace Manifest

/-- What a field has been read as. -/
inductive Slot
  | text (s : String)
  | optional (s : Option String)
  | texts (ss : List String)

/-- What a field is read as, if it can have the value. -/
def Field.slot? : Field → Value → Option Slot
  | .id, v => v.text?.map .text
  | .name, v => v.text?.map .text
  | .version, v => v.text?.map .text
  | .description, v => v.optional?.map .optional
  | .capabilities, v => v.texts?.map .texts

namespace Draft

/-- What a field has been read as so far. -/
def get (d : Draft) : Field → Option Slot
  | .id => d.id.map .text
  | .name => d.name.map .text
  | .version => d.version.map .text
  | .description => d.description.map .optional
  | .capabilities => d.capabilities.map .texts

/-- The draft after a field has been read, if the field can have the value. -/
def fill? (d : Draft) : Field → Value → Option Draft
  | .id, v => v.text?.map fun s => { d with id := some s }
  | .name, v => v.text?.map fun s => { d with name := some s }
  | .version, v => v.text?.map fun s => { d with version := some s }
  | .description, v => v.optional?.map fun s => { d with description := some s }
  | .capabilities, v => v.texts?.map fun ss => { d with capabilities := some ss }

/-- The draft after the members of an object. -/
def take? : Draft → List (String × Value) → Option Draft
  | d, [] => some d
  | d, (k, v) :: ms =>
    match Field.ofKey? k with
    | none => d.take? ms
    | some f => if d.has f then none else (d.fill? f v).bind fun d => d.take? ms

/-- The draft after the items of an array, which give these fields. -/
def place? : List Field → Draft → List Value → Option Draft
  | _, d, [] => some d
  | [], _, _ :: _ => none
  | f :: fs, d, v :: vs => (d.fill? f v).bind fun d => place? fs d vs

end Draft

/-- The manifest of a document. -/
def ofValue? : Value → Option Manifest
  | .object members => (Draft.take? {} members).bind fun d => d.toManifest.toOption
  | .array items => (Draft.place? Field.all {} items).bind fun d => d.toManifest.toOption
  | _ => none

/-- What becomes of a field: without a value it stays as it is, and a single value is read. -/
def Field.Takes (f : Field) (before : Option Slot) (vs : List Value) (after : Option Slot) : Prop :=
  vs = [] ∧ after = before ∨ ∃ v x, vs = [v] ∧ before = none ∧ f.slot? v = some x ∧ after = some x

/-! ## One field -/

section Fields

variable {d d' : Draft} {f g : Field} {k : String} {v : Value} {x : Slot}
  {ms : List (String × Value)}

/-- The key of a field is its own. -/
theorem Field.ofKey?_eq_some_iff : Field.ofKey? k = some f ↔ k = f.key := by
  constructor
  · intro found
    have same := List.find?_some found
    exact (beq_iff_eq.mp same).symm
  · rintro rfl
    cases f <;> decide

theorem Field.ofKey?_eq_none_iff : Field.ofKey? k = none ↔ ∀ f : Field, k ≠ f.key := by
  constructor
  · rintro none f same
    rw [Field.ofKey?_eq_some_iff.mpr same] at none
    cases none
  · intro other
    cases found : Field.ofKey? k with
    | none => rfl
    | some f => exact absurd (Field.ofKey?_eq_some_iff.mp found) (other f)

theorem Field.key_inj (h : f.key = g.key) : f = g := by
  have found := Field.ofKey?_eq_some_iff.mpr h
  rw [Field.ofKey?_eq_some_iff.mpr rfl] at found
  exact Option.some.inj found

namespace Draft

theorem has_eq_isSome (d : Draft) (f : Field) : d.has f = (d.get f).isSome := by
  cases f <;> simp [has, get]

/-- A draft is known from its fields. -/
theorem ext_get (h : ∀ f, d.get f = d'.get f) : d = d' := by
  have texts {s t : Option String} (same : s.map Slot.text = t.map Slot.text) : s = t :=
    Option.map_injective (fun _ _ => Slot.text.inj) same
  have lists {s t : Option (List String)} (same : s.map Slot.texts = t.map Slot.texts) : s = t :=
    Option.map_injective (fun _ _ => Slot.texts.inj) same
  have options {s t : Option (Option String)} (same : s.map Slot.optional = t.map Slot.optional) :
      s = t :=
    Option.map_injective (fun _ _ => Slot.optional.inj) same
  cases d
  cases d'
  congr 1
  · exact texts (h .id)
  · exact texts (h .name)
  · exact texts (h .version)
  · exact options (h .description)
  · exact lists (h .capabilities)

/-- A field that can have the value is read. -/
theorem fill?_of_slot? (h : f.slot? v = some x) : ∃ d', d.fill? f v = some d' ∧
    ∀ g, d'.get g = if g = f then some x else d.get g := by
  cases f <;>
  · obtain ⟨s, value, rfl⟩ := Option.map_eq_some_iff.mp h
    refine ⟨_, by rw [fill?, value]; rfl, fun g => ?_⟩
    cases g <;> rfl

/-- Reading a field sets this field and no other. -/
theorem fill?_eq_some_iff : d.fill? f v = some d' ↔
    ∃ x, f.slot? v = some x ∧ ∀ g, d'.get g = if g = f then some x else d.get g := by
  constructor
  · intro filled
    have slot : ∃ x, f.slot? v = some x := by
      cases f <;>
      · obtain ⟨s, value, -⟩ := Option.map_eq_some_iff.mp filled
        exact ⟨_, by rw [Field.slot?, value]; rfl⟩
    obtain ⟨x, slot⟩ := slot
    obtain ⟨e, filled', get⟩ := fill?_of_slot? (d := d) slot
    cases filled.symm.trans filled'
    exact ⟨x, slot, get⟩
  · rintro ⟨x, slot, get⟩
    obtain ⟨e, filled, get'⟩ := fill?_of_slot? (d := d) slot
    have same : e = d' := ext_get fun g => (get' g).trans (get g).symm
    rw [filled, same]

end Draft

end Fields

/-! ## All fields of an object -/

section Members

variable {d d' : Draft} {f g : Field} {k : String} {v : Value} {ms : List (String × Value)}

/-- A member whose key is no field's changes nothing. -/
theorem Draft.take?_other (other : ∀ f : Field, k ≠ f.key) :
    d.take? ((k, v) :: ms) = d.take? ms := by
  rw [take?, Field.ofKey?_eq_none_iff.mpr other]

/-- A field's member is read unless there has been one. -/
theorem Draft.take?_field : d.take? ((f.key, v) :: ms) = some d' ↔
    d.get f = none ∧ ∃ x, f.slot? v = some x ∧
      ∃ e : Draft, (∀ g, e.get g = if g = f then some x else d.get g) ∧ e.take? ms = some d' := by
  rw [take?, Field.ofKey?_eq_some_iff.mpr rfl]
  simp only [has_eq_isSome]
  cases d.get f with
  | some x => simp
  | none =>
    simp only [Option.isSome_none, Bool.false_eq_true, ↓reduceIte, Option.bind_eq_some_iff,
      true_and]
    constructor
    · rintro ⟨e, filled, further⟩
      obtain ⟨x, slot, get⟩ := fill?_eq_some_iff.mp filled
      exact ⟨x, slot, e, get, further⟩
    · rintro ⟨x, slot, e, get, further⟩
      exact ⟨e, fill?_eq_some_iff.mpr ⟨x, slot, get⟩, further⟩

/-- A member is a value of its own field alone. -/
theorem Field.valuesOf_key_cons (f g : Field) : valuesOf g.key ((f.key, v) :: ms) =
    if g = f then v :: valuesOf g.key ms else valuesOf g.key ms := by
  rw [Json.valuesOf_cons]
  by_cases same : g = f
  · rw [if_pos same, if_pos (congrArg key same.symm)]
  · rw [if_neg same, if_neg fun keys => same (key_inj keys).symm]

theorem Field.takes_nil {before after : Option Slot} :
    f.Takes before [] after ↔ after = before := by
  simp [Takes]

/-- A field that has been read takes no further value. -/
theorem Field.takes_some {x : Slot} {vs : List Value} {after : Option Slot} :
    f.Takes (some x) vs after ↔ vs = [] ∧ after = some x := by
  simp [Takes]

theorem Field.takes_cons {before after : Option Slot} {vs : List Value} :
    f.Takes before (v :: vs) after ↔
      before = none ∧ ∃ x, f.slot? v = some x ∧ f.Takes (some x) vs after := by
  constructor
  · rintro (⟨none, -⟩ | ⟨w, x, same, before, slot, after⟩)
    · cases none
    · obtain ⟨rfl, rfl⟩ := List.cons.inj same
      exact ⟨before, x, slot, .inl ⟨rfl, after⟩⟩
  · rintro ⟨before, x, slot, further⟩
    obtain ⟨rfl, after⟩ := takes_some.mp further
    exact .inr ⟨v, x, rfl, before, slot, after⟩

/-- An object is read field by field, whatever the order of its members. -/
theorem Draft.take?_eq_some_iff : d.take? ms = some d' ↔
    ∀ f : Field, f.Takes (d.get f) (valuesOf f.key ms) (d'.get f) := by
  induction ms generalizing d with
  | nil =>
    rw [take?, Option.some.injEq]
    refine ⟨?_, fun same => ext_get fun f => (Field.takes_nil.mp (same f)).symm⟩
    rintro rfl f
    exact Field.takes_nil.mpr rfl
  | cons m ms ih =>
    obtain ⟨k, v⟩ := m
    by_cases other : ∀ f : Field, k ≠ f.key
    · rw [take?_other other, ih]
      refine forall_congr' fun f => ?_
      rw [Json.valuesOf_cons, if_neg (other f)]
    · -- The field of the key takes the value, and the other fields see only what follows.
      obtain ⟨f, hf⟩ := not_forall.mp other
      obtain rfl := not_not.mp hf
      rw [take?_field]
      constructor
      · rintro ⟨fresh, x, slot, e, get, further⟩ g
        have later := ih.mp further g
        rw [get g] at later
        rw [Field.valuesOf_key_cons]
        by_cases same : g = f
        · subst same
          rw [if_pos rfl] at later ⊢
          exact Field.takes_cons.mpr ⟨fresh, x, slot, later⟩
        · rwa [if_neg same] at later ⊢
      · intro takes
        have own := takes f
        rw [Field.valuesOf_key_cons, if_pos rfl, Field.takes_cons] at own
        obtain ⟨fresh, x, slot, further⟩ := own
        obtain ⟨e, -, get⟩ := fill?_of_slot? (d := d) slot
        refine ⟨fresh, x, slot, e, get, ih.mpr fun g => ?_⟩
        have other := takes g
        rw [Field.valuesOf_key_cons] at other
        rw [get g]
        by_cases same : g = f
        · subst same
          rwa [if_pos rfl]
        · rwa [if_neg same] at other ⊢

end Members

/-! ## Canonical forms -/

section Canonical

variable {d d' : Draft} {f : Field} {v : Value} {m : Manifest}

theorem text?_canonical (v : Value) : v.canonical.text? = v.text? := by
  cases v <;> rfl

theorem optional?_canonical (v : Value) : v.canonical.optional? = v.optional? := by
  cases v <;> rfl

theorem texts?_canonical (v : Value) : v.canonical.texts? = v.texts? := by
  cases v with
  | array items =>
    rw [Value.canonical, Json.canonicalItems_eq_map]
    simp only [Value.texts?, List.mapM_map, Function.comp_def, text?_canonical]
  | _ => rfl

/-- A field is read as the same in the canonical form. -/
theorem slot?_canonical (f : Field) (v : Value) : f.slot? v.canonical = f.slot? v := by
  cases f <;> simp only [Field.slot?, text?_canonical, optional?_canonical, texts?_canonical]

theorem fill?_canonical (d : Draft) (f : Field) (v : Value) :
    d.fill? f v.canonical = d.fill? f v := by
  cases f <;> simp only [Draft.fill?, text?_canonical, optional?_canonical, texts?_canonical]

theorem place?_canonical (fs : List Field) (d : Draft) (vs : List Value) :
    Draft.place? fs d (Json.canonicalItems vs) = Draft.place? fs d vs := by
  induction vs generalizing fs d with
  | nil => rfl
  | cons v vs ih =>
    cases fs with
    | nil => rfl
    | cons f fs =>
      rw [Json.canonicalItems, Draft.place?, Draft.place?, fill?_canonical]
      exact congrArg _ (funext fun d => ih fs d)

/-- An object that is read is read as the same in its canonical form, where each key has the
last of its values. -/
theorem take?_canonical {ms : List (String × Value)} (h : d.take? ms = some d') :
    d.take? (Json.sortMembers (Json.canonicalMembers ms)) = some d' := by
  rw [Draft.take?_eq_some_iff] at h ⊢
  intro f
  rw [(Json.sorted_sortMembers _).valuesOf_eq, Json.member?_sortMembers,
    Json.member?_canonicalMembers, Json.member?_eq_getLast?]
  rcases h f with ⟨none, same⟩ | ⟨v, x, one, before, slot, after⟩
  · rw [none]
    exact .inl ⟨rfl, same⟩
  · rw [one]
    exact .inr ⟨v.canonical, x, rfl, before, (slot?_canonical f v).trans slot, after⟩

/-- A document with a manifest has the same one in its canonical form. -/
theorem ofValue?_canonical (h : ofValue? v = some m) : ofValue? v.canonical = some m := by
  cases v with
  | object members =>
    obtain ⟨d, taken, manifest⟩ := Option.bind_eq_some_iff.mp h
    exact Option.bind_eq_some_iff.mpr ⟨d, take?_canonical taken, manifest⟩
  | array items =>
    rw [Value.canonical, ofValue?, place?_canonical]
    exact h
  | _ => cases h

end Canonical

end Manifest

end PluginHost
