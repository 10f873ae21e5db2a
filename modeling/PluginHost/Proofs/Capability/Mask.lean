import PluginHost.Capability.Grant

/-!
# Masks as sets of bits

A mask is known by its bits: one mask has all that another holds if it has each of its bits,
and a bit is in a union if it is in one of the masks.

Results:
1. `Mask.satisfies_iff_bits`, `Mask.meets_iff_bits` and `Mask.mem_union`: what masks have of one
   another, bit by bit.
2. `Mask.union_congr`: a union does not depend on the order of masks, or on how often each of
   them is there.
3. `Grant.accepts_iff`: what a grant accepts is known and under the ceiling.
-/

namespace PluginHost

/-- All bits of some masks. -/
def Mask.union (masks : List Mask) : Mask :=
  masks.foldr (· ||| ·) 0#64

namespace Mask

variable {a b c m : Mask} {i : Nat} {masks : List Mask}

/-! ## Bits -/

theorem eq_iff_bits : a = b ↔ ∀ i, a.getLsbD i = true ↔ b.getLsbD i = true :=
  ⟨fun same i => by rw [same],
    fun bits => BitVec.eq_of_getLsbD_eq fun i _ => Bool.eq_iff_iff.mpr (bits i)⟩

/-- One mask has every bit of another. -/
theorem satisfies_iff_bits :
    c.satisfies a = true ↔ ∀ i, a.getLsbD i = true → c.getLsbD i = true := by
  rw [satisfies_iff]
  constructor
  · intro h i hi
    rw [← h, BitVec.getLsbD_and, Bool.and_eq_true] at hi
    exact hi.1
  · intro h
    refine BitVec.eq_of_getLsbD_eq fun i _ => ?_
    cases hi : a.getLsbD i with
    | false => simp [hi]
    | true => simp [hi, h i hi]

/-- Two masks share a bit. -/
theorem meets_iff_bits : a.meets b = true ↔ ∃ i, a.getLsbD i = true ∧ b.getLsbD i = true := by
  rw [meets, bne_iff_ne, ne_eq, eq_iff_bits, Classical.not_forall]
  simp only [BitVec.getLsbD_and, Bool.and_eq_true, BitVec.getLsbD_zero, Bool.false_eq_true,
    iff_false, Classical.not_not]

/-! ## Having all of a mask -/

theorem satisfies_refl (a : Mask) : a.satisfies a = true :=
  satisfies_iff_bits.mpr fun _ hi => hi

theorem satisfies_trans (hab : a.satisfies b = true) (hbc : b.satisfies c = true) :
    a.satisfies c = true := by
  rw [satisfies_iff_bits] at *
  exact fun i hi => hab i (hbc i hi)

theorem satisfies_or_iff :
    c.satisfies (a ||| b) = true ↔ c.satisfies a = true ∧ c.satisfies b = true := by
  simp only [satisfies_iff_bits, BitVec.getLsbD_or, Bool.or_eq_true, or_imp, forall_and]

theorem satisfies_or (ha : c.satisfies a = true) (hb : c.satisfies b = true) :
    c.satisfies (a ||| b) = true :=
  satisfies_or_iff.mpr ⟨ha, hb⟩

theorem or_satisfies (a b : Mask) : (a ||| b).satisfies a = true :=
  (satisfies_or_iff.mp (satisfies_refl (a ||| b))).1

theorem or_satisfies_right (a b : Mask) : (a ||| b).satisfies b = true :=
  (satisfies_or_iff.mp (satisfies_refl (a ||| b))).2

theorem satisfies_and_right (a c : Mask) : c.satisfies (a &&& c) = true := by
  rw [satisfies_iff_bits]
  intro i hi
  rw [BitVec.getLsbD_and, Bool.and_eq_true] at hi
  exact hi.2

/-- Only the empty mask is within the empty mask. -/
theorem eq_zero_of_satisfies (h : satisfies 0#64 a = true) : a = 0#64 := by
  rw [satisfies_iff] at h
  simpa using h.symm

/-- A mask with more bits shares more. -/
theorem meets_of_satisfies (more : c.satisfies a = true) (shared : a.meets m = true) :
    c.meets m = true := by
  obtain ⟨i, ha, hm⟩ := meets_iff_bits.mp shared
  exact meets_iff_bits.mpr ⟨i, satisfies_iff_bits.mp more i ha, hm⟩

/-! ## Unions -/

theorem union_cons (m : Mask) (masks : List Mask) : union (m :: masks) = m ||| union masks := rfl

/-- A bit is in a union if it is in one of the masks. -/
theorem mem_union : (union masks).getLsbD i = true ↔ ∃ m ∈ masks, m.getLsbD i = true := by
  induction masks with
  | nil => simp [union]
  | cons m masks ih =>
    rw [union_cons, BitVec.getLsbD_or, Bool.or_eq_true, ih]
    simp only [List.mem_cons, exists_eq_or_imp]

/-- Masks that are the same but for their order and repetition have the same union. -/
theorem union_congr {masks' : List Mask} (same : ∀ m, m ∈ masks ↔ m ∈ masks') :
    union masks = union masks' := by
  simp only [eq_iff_bits, mem_union, same, implies_true]

theorem union_append (a b : List Mask) : union (a ++ b) = union a ||| union b := by
  simp only [eq_iff_bits, BitVec.getLsbD_or, Bool.or_eq_true, mem_union, List.mem_append,
    or_and_right, exists_or, implies_true]

/-- A union has all bits of each of its masks. -/
theorem union_satisfies (h : m ∈ masks) : (union masks).satisfies m = true :=
  satisfies_iff_bits.mpr fun _ hi => mem_union.mpr ⟨m, h, hi⟩

/-- A mask that has all bits of some masks has those of their union. -/
theorem satisfies_union (h : ∀ m ∈ masks, c.satisfies m = true) :
    c.satisfies (union masks) = true := by
  rw [satisfies_iff_bits]
  intro i hi
  obtain ⟨m, hm, bit⟩ := mem_union.mp hi
  exact satisfies_iff_bits.mp (h m hm) i bit

end Mask

/-! ## What a grant accepts -/

namespace Grant

variable {g : Grant} {m : Mask}

/-- What a grant accepts is known and under the ceiling. -/
theorem accepts_iff :
    g.accepts m = true ↔ Mask.known.satisfies m = true ∧ g.ceiling.satisfies m = true := by
  rw [accepts, Bool.and_eq_true, Mask.isKnown_iff, Mask.satisfies_iff, Mask.satisfies_iff,
    BitVec.and_comm]

/-- Whether a mask is given depends on the ceiling alone. -/
theorem accepts_congr {g' : Grant} (h : g'.ceiling = g.ceiling) (m : Mask) :
    g'.accepts m = g.accepts m := by
  simp [accepts, h]

end Grant

end PluginHost
