import Mathlib.Data.String.Basic
import PluginHost.Json.Canonical

/-!
# Members in order

Sorting the members of an object leaves every look-up as it was, and members in order are
known from their look-ups.

Results:
1. `member?_perm`: without repeated keys the order of the members plays no part.
2. `member?_sortMembers`: each key keeps the last of its values.
3. `sorted_sortMembers`: the keys increase, so none is repeated.
4. `Sorted.ext`: members in order with the same look-ups are the same.
-/

namespace PluginHost.Json

/-- The keys increase. -/
def Sorted (ms : List (String × Value)) : Prop :=
  ms.Pairwise fun a b => a.1 < b.1

/-- All values of a key. -/
def valuesOf (q : String) (ms : List (String × Value)) : List Value :=
  (ms.filter fun m => m.1 = q).map Prod.snd

section Members

variable {ms ns : List (String × Value)} {m : String × Value} {k q : String} {v : Value}

theorem Sorted.tail (h : Sorted (m :: ms)) : Sorted ms :=
  (List.pairwise_cons.mp h).2

theorem Sorted.head_lt (h : Sorted (m :: ms)) : ∀ n ∈ ms, m.1 < n.1 :=
  (List.pairwise_cons.mp h).1

/-! ## Look-ups -/

theorem member?_cons : member? q (m :: ms) =
    (member? q ms).or (if m.1 = q then some m.2 else none) := by
  obtain ⟨k, v⟩ := m
  rw [member?]
  cases member? q ms <;> rfl

theorem member?_eq_none (h : ∀ m ∈ ms, m.1 ≠ q) : member? q ms = none := by
  induction ms with
  | nil => rfl
  | cons m ms ih =>
    rw [member?_cons, ih fun n hn => h n (List.mem_cons_of_mem m hn),
      if_neg (h m List.mem_cons_self)]
    rfl

/-- What is looked up is a member. -/
theorem mem_of_member? (h : member? q ms = some v) : (q, v) ∈ ms := by
  induction ms with
  | nil => cases h
  | cons m ms ih =>
    rw [member?_cons] at h
    cases further : member? q ms with
    | some w =>
      rw [further] at h
      cases h
      exact List.mem_cons_of_mem m (ih further)
    | none =>
      rw [further, Option.none_or] at h
      split at h
      · next same =>
        cases h
        rw [← same]
        exact List.mem_cons_self
      · cases h

@[simp] theorem valuesOf_nil : valuesOf q [] = [] := rfl

theorem valuesOf_cons : valuesOf q (m :: ms) =
    if m.1 = q then m.2 :: valuesOf q ms else valuesOf q ms := by
  by_cases key : m.1 = q <;> simp [valuesOf, key]

/-- The last of several values counts. -/
theorem member?_eq_getLast? : member? q ms = (valuesOf q ms).getLast? := by
  induction ms with
  | nil => rfl
  | cons m ms ih =>
    rw [member?_cons, valuesOf_cons, ih]
    by_cases key : m.1 = q
    · rw [if_pos key, if_pos key, List.getLast?_cons]
      cases (valuesOf q ms).getLast? <;> rfl
    · rw [if_neg key, if_neg key, Option.or_none]

theorem valuesOf_eq_nil (h : ∀ m ∈ ms, m.1 ≠ q) : valuesOf q ms = [] := by
  simpa [valuesOf] using h

/-- If no key is repeated, the members are what can be looked up. -/
theorem member?_eq_some_iff (unique : (ms.map Prod.fst).Nodup) :
    member? q ms = some v ↔ (q, v) ∈ ms := by
  refine ⟨mem_of_member?, fun there => ?_⟩
  induction ms with
  | nil => cases there
  | cons m ms ih =>
    obtain ⟨fresh, unique⟩ := List.nodup_cons.mp unique
    rw [member?_cons]
    rcases List.mem_cons.mp there with rfl | there
    · have later : ∀ n ∈ ms, n.1 ≠ q := by
        rintro n hn rfl
        exact fresh (List.mem_map.mpr ⟨n, hn, rfl⟩)
      rw [member?_eq_none later, if_pos rfl]
      rfl
    · rw [ih unique there]
      rfl

/-- If no key is repeated, the order of the members plays no part. -/
theorem member?_perm (perm : ms.Perm ns) (unique : (ms.map Prod.fst).Nodup) (q : String) :
    member? q ms = member? q ns := by
  have unique' : (ns.map Prod.fst).Nodup := (perm.map Prod.fst).nodup_iff.mp unique
  refine Option.ext fun v => ?_
  rw [member?_eq_some_iff unique, member?_eq_some_iff unique', perm.mem_iff]

/-- The first of members in order is what its key is looked up as. -/
theorem Sorted.member?_head (h : Sorted (m :: ms)) : member? m.1 (m :: ms) = some m.2 := by
  rw [member?_cons, member?_eq_none fun n hn => (h.head_lt n hn).ne', if_pos rfl]
  rfl

/-- Members in order have at most one value of a key. -/
theorem Sorted.valuesOf_eq (h : Sorted ms) : valuesOf q ms = (member? q ms).toList := by
  induction ms with
  | nil => rfl
  | cons m ms ih =>
    rw [valuesOf_cons, member?_cons]
    split
    · next key =>
      subst key
      have later : ∀ n ∈ ms, n.1 ≠ m.1 := fun n hn => (h.head_lt n hn).ne'
      rw [valuesOf_eq_nil later, member?_eq_none later]
      rfl
    · rw [ih h.tail, Option.or_none]

/-! ## Setting a member -/

theorem mem_of_mem_setMember (h : m ∈ setMember k v ms) : m = (k, v) ∨ m ∈ ms := by
  induction ms with
  | nil =>
    left
    simpa [setMember] using h
  | cons n ms ih =>
    rw [setMember] at h
    split at h
    · simpa using h
    · split at h
      · rcases List.mem_cons.mp h with h | h
        · exact .inl h
        · exact .inr (List.mem_cons_of_mem n h)
      · rcases List.mem_cons.mp h with h | h
        · exact .inr (h ▸ List.mem_cons_self)
        · exact (ih h).imp_right (List.mem_cons_of_mem n)

theorem Sorted.setMember (h : Sorted ms) : Sorted (setMember k v ms) := by
  induction ms with
  | nil => exact List.pairwise_singleton _ _
  | cons n ms ih =>
    rw [Json.setMember]
    split
    · next less =>
      refine List.pairwise_cons.mpr ⟨fun m hm => ?_, h⟩
      rcases List.mem_cons.mp hm with rfl | hm
      · exact less
      · exact less.trans (h.head_lt m hm)
    · next notLess =>
      split
      · next same =>
        subst same
        exact List.pairwise_cons.mpr ⟨h.head_lt, h.tail⟩
      · next other =>
        have greater : n.1 < k := lt_of_le_of_ne (not_lt.mp notLess) (Ne.symm other)
        refine List.pairwise_cons.mpr ⟨fun m hm => ?_, ih h.tail⟩
        rcases mem_of_mem_setMember hm with rfl | hm
        · exact greater
        · exact h.head_lt m hm

/-- A key that is set has the new value, and the others keep theirs. -/
theorem Sorted.member?_setMember (h : Sorted ms) :
    member? q (Json.setMember k v ms) = if k = q then some v else member? q ms := by
  induction ms with
  | nil => rfl
  | cons n ms ih =>
    have below (less : k ≤ n.1) : member? k ms = none :=
      member?_eq_none fun m hm => (less.trans_lt (h.head_lt m hm)).ne'
    rw [Json.setMember]
    split
    · next less =>
      rw [member?_cons]
      split
      · next same =>
        subst same
        rw [member?_cons, below less.le, if_neg less.ne']
        rfl
      · rw [Option.or_none]
    · split
      · next same =>
        rw [member?_cons]
        split
        · next key =>
          subst key
          rw [below same.le]
          rfl
        · next key =>
          rw [member?_cons, if_neg (same ▸ key)]
      · next other =>
        rw [member?_cons, ih h.tail]
        split
        · next key =>
          subst key
          simp
        · rw [member?_cons]

/-! ## Sorting -/

theorem sorted_foldl (h : Sorted ns) :
    Sorted (ms.foldl (fun sorted m => Json.setMember m.1 m.2 sorted) ns) := by
  induction ms generalizing ns with
  | nil => exact h
  | cons m ms ih => exact ih h.setMember

theorem sorted_sortMembers (ms : List (String × Value)) : Sorted (sortMembers ms) :=
  sorted_foldl List.Pairwise.nil

theorem member?_foldl (h : Sorted ns) :
    member? q (ms.foldl (fun sorted m => Json.setMember m.1 m.2 sorted) ns) =
      (member? q ms).or (member? q ns) := by
  induction ms generalizing ns with
  | nil => rfl
  | cons m ms ih =>
    rw [List.foldl_cons, ih h.setMember, h.member?_setMember, member?_cons, Option.or_assoc]
    split <;> rfl

/-- Sorting leaves every look-up as it was. -/
theorem member?_sortMembers (q : String) (ms : List (String × Value)) :
    member? q (sortMembers ms) = member? q ms := by
  rw [sortMembers, member?_foldl List.Pairwise.nil]
  exact Option.or_none

theorem mem_of_mem_foldl
    (h : m ∈ ms.foldl (fun sorted m => Json.setMember m.1 m.2 sorted) ns) : m ∈ ms ∨ m ∈ ns := by
  induction ms generalizing ns with
  | nil => exact .inr h
  | cons n ms ih =>
    rcases ih h with h | h
    · exact .inl (List.mem_cons_of_mem n h)
    · rcases mem_of_mem_setMember h with rfl | h
      · exact .inl List.mem_cons_self
      · exact .inr h

theorem mem_of_mem_sortMembers (h : m ∈ sortMembers ms) : m ∈ ms := by
  simpa using mem_of_mem_foldl h

/-- Members in order with the same look-ups are the same. -/
theorem Sorted.ext (h : Sorted ms) (h' : Sorted ns) (same : ∀ q, member? q ms = member? q ns) :
    ms = ns := by
  induction ms generalizing ns with
  | nil =>
    cases ns with
    | nil => rfl
    | cons n ns =>
      have none := same n.1
      rw [h'.member?_head] at none
      cases none
  | cons m ms ih =>
    cases ns with
    | nil =>
      have none := same m.1
      rw [h.member?_head] at none
      cases none
    | cons n ns =>
      -- Each head is the least key of both, so the heads have the same key.
      have least {m n : String × Value} {ms ns : List (String × Value)} (h : Sorted (m :: ms))
          (h' : Sorted (n :: ns))
          (same : ∀ q, member? q (m :: ms) = member? q (n :: ns)) : n.1 ≤ m.1 := by
        have there := mem_of_member? ((same m.1).symm.trans h.member?_head)
        rcases List.mem_cons.mp there with first | later
        · exact (congrArg Prod.fst first).ge
        · exact (h'.head_lt _ later).le
      have key : m.1 = n.1 := le_antisymm (least h' h fun q => (same q).symm) (least h h' same)
      have value : m.2 = n.2 := by
        have both := same m.1
        rw [h.member?_head, key, h'.member?_head] at both
        exact Option.some.inj both
      have head : m = n := Prod.ext key value
      subst head
      refine congrArg (m :: ·) (ih h.tail h'.tail fun q => ?_)
      have both := same q
      rw [member?_cons, member?_cons] at both
      by_cases first : m.1 = q
      · subst first
        rw [member?_eq_none fun n hn => (h.head_lt n hn).ne',
          member?_eq_none fun n hn => (h'.head_lt n hn).ne']
      · simpa [first] using both

end Members

end PluginHost.Json
