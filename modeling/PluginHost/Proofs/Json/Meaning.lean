import PluginHost.Proofs.Json.Members

/-!
# What a document means

A document is taken apart by the places in it. A place is reached from the whole by steps
into arrays and objects, and of the members with a key the last counts. Two documents mean
the same if the same stands at every place.

* `Value.at?` is the document at a place.
* `Value.Same` says that two documents mean the same.
* `Value.Within` says that a document stands somewhere in another, members that do not
  count included.

Results:
1. `Value.canonical_same`: a document means the same as its canonical form.
2. `Value.same_iff`: two documents mean the same exactly if their canonical forms are equal.
3. `Value.sorted_of_within_canonical`: in a canonical form the keys of every object increase.
-/

namespace PluginHost.Json

/-! ## Definitions -/

inductive Step
  | item (index : Nat)
  | member (key : String)

/-- What stands at a place, apart from what it contains. -/
inductive Shape
  | null
  | bool (b : Bool)
  | number (n : Number)
  | string (s : String)
  | array (length : Nat)
  | object

namespace Value

def shape : Value → Shape
  | .null => .null
  | .bool b => .bool b
  | .number n => .number n
  | .string s => .string s
  | .array items => .array items.length
  | .object _ => .object

/-- The document one step further in. -/
def child? : Step → Value → Option Value
  | .item i, .array items => items[i]?
  | .member k, .object members => member? k members
  | _, _ => none

/-- The document at a place. -/
def at? : List Step → Value → Option Value
  | [], v => some v
  | s :: path, v => (v.child? s).bind (at? path)

/-- The same stands at every place of both documents. -/
def Same (v w : Value) : Prop :=
  ∀ path, (v.at? path).map shape = (w.at? path).map shape

/-- The document stands somewhere in another. -/
inductive Within : Value → Value → Prop
  | refl (v : Value) : Within v v
  | item {u v : Value} {items : List Value} : v ∈ items → Within u v → Within u (.array items)
  | member {u : Value} {m : String × Value} {members : List (String × Value)} :
      m ∈ members → Within u m.2 → Within u (.object members)

/-! ## Induction -/

/-- Induction over a document, with the hypothesis for all items and for all members. -/
@[elab_as_elim, induction_eliminator]
theorem induct {motive : Value → Prop} (null : motive .null) (bool : ∀ b, motive (.bool b))
    (number : ∀ n, motive (.number n)) (string : ∀ s, motive (.string s))
    (array : ∀ items, (∀ v ∈ items, motive v) → motive (.array items))
    (object : ∀ members, (∀ m ∈ members, motive m.2) → motive (.object members)) (v : Value) :
    motive v :=
  @Value.rec motive (fun items => ∀ v ∈ items, motive v) (fun members => ∀ m ∈ members, motive m.2)
    (fun m => motive m.2) null bool number string array object (List.forall_mem_nil _)
    (fun _ _ head tail => List.forall_mem_cons.mpr ⟨head, tail⟩) (List.forall_mem_nil _)
    (fun _ _ head tail => List.forall_mem_cons.mpr ⟨head, tail⟩) (fun _ _ value => value) v

end Value

/-! ## Canonical forms -/

theorem canonicalItems_eq_map (items : List Value) :
    canonicalItems items = items.map Value.canonical := by
  induction items with
  | nil => rfl
  | cons v vs ih => rw [canonicalItems, ih, List.map_cons]

theorem canonicalMembers_eq_map (members : List (String × Value)) :
    canonicalMembers members = members.map fun m => (m.1, m.2.canonical) := by
  induction members with
  | nil => rfl
  | cons m ms ih => rw [canonicalMembers, ih, List.map_cons]

/-- Looking up and taking the canonical form can be done in either order. -/
theorem member?_canonicalMembers (q : String) (members : List (String × Value)) :
    member? q (canonicalMembers members) = (member? q members).map Value.canonical := by
  rw [canonicalMembers_eq_map]
  induction members with
  | nil => rfl
  | cons m ms ih =>
    rw [List.map_cons, member?_cons, member?_cons, ih, Option.map_or]
    split <;> rfl

namespace Value

variable {u v w : Value} {ms : List (String × Value)}

theorem child?_canonical (s : Step) (v : Value) :
    v.canonical.child? s = (v.child? s).map canonical := by
  cases v with
  | array items =>
    cases s with
    | item i => simp only [canonical, child?, canonicalItems_eq_map, List.getElem?_map]
    | member k => rfl
  | object members =>
    cases s with
    | item i => rfl
    | member k => simp only [canonical, child?, member?_sortMembers, member?_canonicalMembers]
  | _ => cases s <;> rfl

theorem at?_canonical (path : List Step) (v : Value) :
    v.canonical.at? path = (v.at? path).map canonical := by
  induction path generalizing v with
  | nil => rfl
  | cons s path ih =>
    rw [at?, at?, child?_canonical]
    cases v.child? s with
    | none => rfl
    | some u => exact ih u

theorem shape_canonical (v : Value) : v.canonical.shape = v.shape := by
  cases v with
  | array items => simp [canonical, shape, canonicalItems_eq_map]
  | _ => rfl

/-- A document means the same as its canonical form. -/
theorem canonical_same (v : Value) : v.canonical.Same v := by
  intro path
  rw [at?_canonical, Option.map_map]
  exact congrArg (Option.map · _) (funext shape_canonical)

/-! ## The same meaning -/

theorem Same.refl (v : Value) : v.Same v := fun _ => rfl

theorem Same.symm (h : v.Same w) : w.Same v := fun path => (h path).symm

theorem Same.trans (h : u.Same v) (h' : v.Same w) : u.Same w :=
  fun path => (h path).trans (h' path)

theorem Same.shape (h : v.Same w) : v.shape = w.shape :=
  Option.some.inj (h [])

/-- A step leads to the same in both, or to nothing. -/
theorem Same.child (h : v.Same w) (s : Step) : v.child? s = none ∧ w.child? s = none ∨
    ∃ a b, v.child? s = some a ∧ w.child? s = some b ∧ a.Same b := by
  have here := h [s]
  have further (path : List Step) := h (s :: path)
  simp only [at?] at here further
  cases hv : v.child? s with
  | none =>
    cases hw : w.child? s with
    | none => exact .inl ⟨rfl, rfl⟩
    | some b => simp [hv, hw] at here
  | some a =>
    cases hw : w.child? s with
    | none => simp [hv, hw] at here
    | some b =>
      refine .inr ⟨a, b, rfl, rfl, fun path => ?_⟩
      simpa [hv, hw] using further path

/-- Canonical forms at a step agree if those further in do. -/
theorem Same.map_child (h : v.Same w) (s : Step)
    (further : ∀ a, v.child? s = some a → ∀ b, a.Same b → a.canonical = b.canonical) :
    (v.child? s).map canonical = (w.child? s).map canonical := by
  rcases h.child s with ⟨hv, hw⟩ | ⟨a, b, hv, hw, same⟩
  · rw [hv, hw]
  · rw [hv, hw, Option.map_some, Option.map_some, further a hv b same]

theorem Same.canonical_eq (h : v.Same w) : v.canonical = w.canonical := by
  induction v generalizing w with
  | array items ih =>
    have shape := h.shape
    cases w with
    | array others =>
      refine congrArg Value.array (List.ext_getElem? fun i => ?_)
      rw [canonicalItems_eq_map, canonicalItems_eq_map, List.getElem?_map, List.getElem?_map]
      exact h.map_child (.item i) fun a ha b same => ih a (List.mem_of_getElem? ha) same
    | _ => cases shape
  | object members ih =>
    have shape := h.shape
    cases w with
    | object others =>
      refine congrArg Value.object ?_
      refine (sorted_sortMembers _).ext (sorted_sortMembers _) fun q => ?_
      rw [member?_sortMembers, member?_sortMembers, member?_canonicalMembers,
        member?_canonicalMembers]
      exact h.map_child (.member q) fun a ha b same => ih (q, a) (mem_of_member? ha) same
    | _ => cases shape
  | _ =>
    have shape := h.shape
    cases w <;> cases shape
    rfl

/-- Two documents mean the same exactly if their canonical forms are equal. -/
theorem same_iff : v.Same w ↔ v.canonical = w.canonical := by
  refine ⟨Same.canonical_eq, fun h => ?_⟩
  exact (canonical_same v).symm.trans (h ▸ canonical_same w)

/-- A canonical form is its own. -/
theorem canonical_canonical (v : Value) : v.canonical.canonical = v.canonical :=
  (canonical_same v).canonical_eq

/-- In a canonical form the keys of every object increase. -/
theorem sorted_of_within_canonical (h : Within (.object ms) v.canonical) : Sorted ms := by
  induction v with
  | array items ih =>
    rw [canonical, canonicalItems_eq_map] at h
    cases h with
    | item there further =>
      obtain ⟨v, hv, rfl⟩ := List.mem_map.mp there
      exact ih v hv further
  | object members ih =>
    cases h with
    | refl => exact sorted_sortMembers _
    | member there further =>
      have there := mem_of_mem_sortMembers there
      rw [canonicalMembers_eq_map] at there
      obtain ⟨m, hm, rfl⟩ := List.mem_map.mp there
      exact ih m hm further
  | _ => cases h

end Value

end PluginHost.Json
