import PluginHost.PluginId
import PluginHost.Proofs.Text.Split

/-!
# The grammar of plugin ids

An id is read from left to right, and its grammar is said by its segments. The two agree.

Results:
1. `PluginId.isValid_iff`: the two agree.
2. `PluginId.mem_of_isValid`: the characters of an id.
-/

namespace PluginHost.PluginId

variable {part : List Char} {parts : List (List Char)}

/-- What is still to come of the segment that is being read. -/
def IsRest (fresh : Bool) (part : List Char) : Prop :=
  if fresh then IsSegment part else ∀ c ∈ part, isInner c = true

/-- A reader that is inside an id accepts what makes its segment whole and goes on with
whole segments, if there is a dot before or behind it. -/
theorem scan_iff (dotted fresh : Bool) {cs : List Char} (split : splitOn '.' cs = part :: parts) :
    scan dotted fresh cs = true ↔
      (dotted = true ∨ parts ≠ []) ∧ IsRest fresh part ∧ ∀ seg ∈ parts, IsSegment seg := by
  induction cs generalizing dotted fresh part parts with
  | nil =>
    cases split
    cases dotted <;> cases fresh <;> simp [scan, IsRest, IsSegment]
  | cons c cs ih =>
    obtain ⟨next, more, rest⟩ := List.exists_cons_of_ne_nil (splitOn_ne_nil '.' cs)
    by_cases dot : c = '.'
    · subst dot
      rw [splitOn_cons_sep, rest] at split
      cases split
      have closed : Ascii.isAlnum '.' = false := by decide
      cases fresh with
      | true => simp [scan, closed, IsRest, IsSegment]
      | false => simp [scan, ih true true rest, IsRest]
    · rw [splitOn_cons_of_ne dot rest] at split
      cases split
      have inner := ih dotted false rest
      cases fresh with
      | true => simp [scan, inner, IsRest, IsSegment, and_assoc, and_left_comm]
      | false => simp [scan, dot, inner, IsRest, and_assoc, and_left_comm]

/-- A text is read as an id if and only if it is one by its segments. -/
theorem isValid_iff {s : String} : isValid s = true ↔ IsReverseDomain s := by
  obtain ⟨part, parts, split⟩ := List.exists_cons_of_ne_nil (splitOn_ne_nil '.' s.toList)
  have several : parts ≠ [] ↔ 2 ≤ (part :: parts).length := by
    cases parts <;> simp
  rw [isValid, scan_iff false true split, IsReverseDomain, split, ← several]
  simp [IsRest]

/-- What is read as the rest of an id has no characters but those of segments, and dots. -/
theorem mem_of_scan {dotted fresh : Bool} {cs : List Char} (ok : scan dotted fresh cs = true) :
    ∀ c ∈ cs, isInner c = true ∨ c = '.' := by
  induction cs generalizing dotted fresh with
  | nil => exact fun _ h => absurd h List.not_mem_nil
  | cons c cs ih =>
    refine List.forall_mem_cons.mpr ?_
    rw [scan] at ok
    by_cases first : fresh = true
    · rw [if_pos first, Bool.and_eq_true] at ok
      exact ⟨.inl (by simp [isInner, ok.1]), ih ok.2⟩
    · rw [if_neg first] at ok
      by_cases dot : c = '.'
      · rw [if_pos dot] at ok
        exact ⟨.inr dot, ih ok⟩
      · rw [if_neg dot, Bool.and_eq_true] at ok
        exact ⟨.inl ok.1, ih ok.2⟩

theorem mem_of_isValid {s : String} (valid : isValid s = true) :
    ∀ c ∈ s.toList, isInner c = true ∨ c = '.' :=
  mem_of_scan valid

end PluginHost.PluginId
