import Mathlib.Algebra.Order.Field.Power
import Mathlib.Algebra.Order.Ring.Unbundled.Rat
import Mathlib.Tactic.Linarith
import PluginHost.Decimal.Shortest

/-!
# Shortest decimals are not zero

The search for the digits of a value starts at the place of its first digit and goes
downwards, so that no grid on the way is too coarse for the value.

Results:
1. `reaches_leadingPlace`: a ratio is at least the power of ten of its leading place.
2. `shortest_ne_zero`: the digits of a value other than zero are not zero.
-/

namespace PluginHost.Decimal

/-- The ratio is at least `10^k`. -/
def Ratio.Reaches (r : Ratio) (k : Int) : Prop :=
  (10 : ℚ) ^ k * r.den ≤ r.num

section Ratio

variable {r : Ratio} {j k : Int} {n : Nat}

theorem Ratio.Reaches.mono (h : r.Reaches k) (le : j ≤ k) : r.Reaches j := by
  have power : (10 : ℚ) ^ j ≤ 10 ^ k := zpow_le_zpow_right₀ (by norm_num) le
  exact (mul_le_mul_of_nonneg_right power (Nat.cast_nonneg _)).trans h

/-- The whole part of a ratio that reaches a place is not zero there. -/
theorem Ratio.Reaches.floorAt (h : r.Reaches k) (den : 0 < r.den) : 0 < r.floorAt k := by
  unfold Reaches at h
  cases k with
  | ofNat n =>
    have whole : r.den * 10 ^ n ≤ r.num := by
      rw [Int.ofNat_eq_natCast, zpow_natCast] at h
      have cast : ((r.den * 10 ^ n : ℕ) : ℚ) ≤ (r.num : ℕ) := by
        push_cast
        linarith
      exact_mod_cast cast
    exact Nat.div_pos whole (Nat.mul_pos den (Nat.pow_pos (by decide)))
  | negSucc n =>
    have whole : r.den ≤ r.num * 10 ^ (n + 1) := by
      rw [zpow_negSucc] at h
      have cast : ((r.den : ℕ) : ℚ) ≤ ((r.num * 10 ^ (n + 1) : ℕ) : ℚ) := by
        push_cast
        have := (inv_mul_le_iff₀ (by positivity : (0 : ℚ) < 10 ^ (n + 1))).mp h
        linarith
      exact_mod_cast cast
    exact Nat.div_pos whole den

theorem lt_tenTo_digitCount (n : Nat) : n < 10 ^ digitCount n :=
  (Nat.length_toDigits_le_iff (by decide) Nat.length_toDigits_pos).mp (le_refl _)

theorem tenTo_digitCount_le (h : n ≠ 0) : 10 ^ (digitCount n - 1) ≤ n := by
  by_cases single : digitCount n ≤ 1
  · rw [Nat.sub_eq_zero_of_le single]
    exact Nat.pos_of_ne_zero h
  · by_contra less
    have shorter := (Nat.length_toDigits_le_iff (b := 10) (by decide) (by omega)).mpr
      (Nat.not_le.mp less)
    change digitCount n ≤ digitCount n - 1 at shorter
    omega

theorem point_one_le_iff : (point 1 k).le r = true ↔ r.Reaches k := by
  cases k with
  | ofNat n =>
    have cast : ((10 ^ n * r.den : ℕ) : ℚ) ≤ (r.num : ℕ) ↔ r.Reaches (.ofNat n) := by
      rw [Ratio.Reaches, Int.ofNat_eq_natCast, zpow_natCast]
      push_cast
      exact Iff.rfl
    rw [← cast, Nat.cast_le]
    simp [point, Ratio.scaled, Ratio.le]
  | negSucc n =>
    have cast : ((r.den : ℕ) : ℚ) ≤ ((r.num * 10 ^ (n + 1) : ℕ) : ℚ) ↔
        r.Reaches (.negSucc n) := by
      rw [Ratio.Reaches, zpow_negSucc, inv_mul_le_iff₀ (by positivity), mul_comm]
      push_cast
      exact Iff.rfl
    rw [← cast, Nat.cast_le]
    simp [point, Ratio.scaled, Ratio.le]

/-- A ratio is at least the power of ten of its leading place. -/
theorem reaches_leadingPlace (num : r.num ≠ 0) : r.Reaches (leadingPlace r) := by
  unfold leadingPlace
  dsimp only
  split
  · next reaches => exact point_one_le_iff.mp reaches
  · have counted : 1 ≤ digitCount r.num := Nat.length_toDigits_pos
    have split : (digitCount r.num : ℤ) - digitCount r.den - 1 + digitCount r.den =
        ((digitCount r.num - 1 : ℕ) : ℤ) := by omega
    have den : (r.den : ℚ) ≤ 10 ^ digitCount r.den := by
      exact_mod_cast (lt_tenTo_digitCount r.den).le
    have least : (10 : ℚ) ^ (digitCount r.num - 1) ≤ r.num := by
      exact_mod_cast tenTo_digitCount_le num
    unfold Ratio.Reaches
    calc (10 : ℚ) ^ ((digitCount r.num : ℤ) - digitCount r.den - 1) * r.den
        ≤ 10 ^ ((digitCount r.num : ℤ) - digitCount r.den - 1) * 10 ^ digitCount r.den :=
          mul_le_mul_of_nonneg_left den (by positivity)
      _ = 10 ^ (digitCount r.num - 1) := by
          rw [← zpow_natCast, ← zpow_add₀ (by norm_num), split, zpow_natCast]
      _ ≤ r.num := least

end Ratio

/-! ## The search -/

section Search

variable {b : Binary64} {d fuel : Nat} {k : Int}

theorem stripZeros_ne_zero (h : d ≠ 0) : (stripZeros fuel d k).1 ≠ 0 := by
  induction fuel generalizing d k with
  | zero => exact h
  | succ fuel ih =>
    rw [stripZeros]
    split
    · next zero => exact ih (by omega)
    · exact h

/-- A decimal on a grid is one of the two neighbours. -/
theorem floorAt_le_of_onGrid? (h : onGrid? b k = some d) : (b.near 0).floorAt k ≤ d := by
  unfold onGrid? at h
  dsimp only at h
  split at h
  · split at h
    · have := Option.some.inj h
      split at this <;> omega
    · split at h
      · exact (Option.some.inj h).le
      · exact Nat.le_of_succ_le (Option.some.inj h).le
  · exact (Option.some.inj h).le
  · exact Nat.le_of_succ_le (Option.some.inj h).le
  · cases h

theorem search_ne_zero (reaches : (b.near 0).Reaches k) (den : 0 < (b.near 0).den) :
    (search b fuel k).1 ≠ 0 := by
  induction fuel generalizing k with
  | zero => exact (reaches.floorAt den).ne'
  | succ fuel ih =>
    rw [search]
    split
    · next d found =>
      have least := floorAt_le_of_onGrid? found
      have pos := reaches.floorAt den
      exact stripZeros_ne_zero (by omega)
    · exact ih (reaches.mono (by omega))

theorem near_zero_den_pos (b : Binary64) : 0 < (b.near 0).den := by
  unfold Binary64.near Ratio.scaled
  split
  · exact Nat.one_pos
  · exact Nat.pow_pos (by decide)

theorem near_zero_num_ne_zero (h : b.mantissa ≠ 0) : (b.near 0).num ≠ 0 := by
  unfold Binary64.near Ratio.scaled
  have four : (4 * (b.mantissa : ℤ) + 0).toNat ≠ 0 := by omega
  split
  · exact Nat.mul_ne_zero four (Nat.pow_pos (by decide)).ne'
  · exact four

/-- The digits of a value other than zero are not zero. -/
theorem shortest_ne_zero (h : b.mantissa ≠ 0) : (shortest b).1 ≠ 0 :=
  search_ne_zero (reaches_leadingPlace (near_zero_num_ne_zero h)) (near_zero_den_pos b)

end Search

end PluginHost.Decimal
