import Mathlib.Data.FinEnum
import Mathlib.Tactic.IntervalCases
import PluginHost.Text.Base64

/-!
# Base64 texts are exact

The reader of base64 texts takes what the writer writes and nothing else, so a byte string
has one text only.

Results:
1. `decode?_eq_some_iff`: a text stands for a byte string if it is the text that is written
   for it.
2. `length_encode`: the text has four signs for every three bytes begun.
3. `encode_shape`: it consists of digits of the alphabet and, after them, of as many signs
   as fill it up, and the bits that fill up its last digit are zero.
-/

namespace PluginHost.Base64

/-! ## Definitions -/

/-- How many signs fill up the text of `n` bytes. -/
def fills (n : Nat) : Nat :=
  (3 - n % 3) % 3

/-- The bits that fill up the last digit before so many signs. -/
def spare : Nat → UInt8
  | 0 => 0
  | 1 => 3
  | _ => 15

/-- Digits of the alphabet and as many signs to fill up as `n` bytes ask for. -/
def Shape (n : Nat) (text : List UInt8) : Prop :=
  ∃ values : List UInt8, text = values.map digit ++ List.replicate (fills n) fill ∧
    (∀ v ∈ values, v < 64) ∧ ∀ v ∈ values.getLast?, v &&& spare (fills n) = 0

/-! ## Digits -/

/-- A sign has a value below 64 if it is the digit of that value. -/
theorem value?_eq_some_iff {c n : UInt8} : value? c = some n ↔ n < 64 ∧ c = digit n := by
  have digit_of : ∀ c : UInt8, (value? c).all (fun n => n < 64 ∧ c = digit n) = true := by
    decide +kernel
  have value_of : ∀ n : UInt8, n < 64 → value? (digit n) = some n := by decide +kernel
  constructor
  · intro h
    simpa [h] using digit_of c
  · rintro ⟨small, rfl⟩
    exact value_of n small

theorem value?_digit {n : UInt8} (h : n < 64) : value? (digit n) = some n :=
  value?_eq_some_iff.mpr ⟨h, rfl⟩

theorem digit_ne_fill {n : UInt8} (h : n < 64) : digit n ≠ fill := by
  have all : ∀ n : UInt8, n < 64 → digit n ≠ fill := by decide +kernel
  exact all n h

/-! ## Three bytes as four values

The same 24 bits are three bytes and four values below 64. -/

section Bits

variable {a b c w x y z : UInt8}

theorem byte_ext (h : ∀ i < 8, a.toBitVec.getLsbD i = b.toBitVec.getLsbD i) : a = b :=
  UInt8.toBitVec_inj.1 (BitVec.eq_of_getLsbD_eq h)

/-- A value below 64 has none of the two highest bits. -/
theorem lt_64_iff : a < 64 ↔ a.toBitVec[6] = false ∧ a.toBitVec[7] = false := by
  have all : ∀ a : UInt8, a < 64 ↔ a.toBitVec[6] = false ∧ a.toBitVec[7] = false := by
    decide +kernel
  exact all a

theorem value₁_lt : a >>> 2 < 64 := by simp [lt_64_iff]

theorem value₂_lt : (a &&& 3) <<< 4 ||| b >>> 4 < 64 := by simp [lt_64_iff]

theorem value₃_lt : (b &&& 15) <<< 2 ||| c >>> 6 < 64 := by simp [lt_64_iff]

theorem value₄_lt : c &&& 63 < 64 := by simp [lt_64_iff]

theorem byte₁_of_values : (a >>> 2) <<< 2 ||| ((a &&& 3) <<< 4 ||| b >>> 4) >>> 4 = a := by
  refine byte_ext fun i hi => ?_
  interval_cases i <;> simp

theorem byte₂_of_values :
    ((a &&& 3) <<< 4 ||| b >>> 4) <<< 4 ||| ((b &&& 15) <<< 2 ||| c >>> 6) >>> 2 = b := by
  refine byte_ext fun i hi => ?_
  interval_cases i <;> simp

theorem byte₃_of_values : ((b &&& 15) <<< 2 ||| c >>> 6) <<< 6 ||| (c &&& 63) = c := by
  refine byte_ext fun i hi => ?_
  interval_cases i <;> simp

theorem value₁_of_bytes (hw : w < 64) (hx : x < 64) : (w <<< 2 ||| x >>> 4) >>> 2 = w := by
  rw [lt_64_iff] at hw hx
  refine byte_ext fun i hi => ?_
  interval_cases i <;> simp [hw, hx]

theorem value₂_of_bytes (hx : x < 64) (hy : y < 64) :
    ((w <<< 2 ||| x >>> 4) &&& 3) <<< 4 ||| (x <<< 4 ||| y >>> 2) >>> 4 = x := by
  rw [lt_64_iff] at hx hy
  refine byte_ext fun i hi => ?_
  interval_cases i <;> simp [hx, hy]

theorem value₃_of_bytes (hy : y < 64) (hz : z < 64) :
    ((x <<< 4 ||| y >>> 2) &&& 15) <<< 2 ||| (y <<< 6 ||| z) >>> 6 = y := by
  rw [lt_64_iff] at hy hz
  refine byte_ext fun i hi => ?_
  interval_cases i <;> simp [hy, hz]

theorem value₄_of_bytes (hz : z < 64) : (y <<< 6 ||| z) &&& 63 = z := by
  rw [lt_64_iff] at hz
  refine byte_ext fun i hi => ?_
  interval_cases i <;> simp [hz]

/-- The second value of a text that ends after one byte. -/
theorem value₂_of_byte (hx : x < 64) (spared : x &&& 15 = 0) :
    ((w <<< 2 ||| x >>> 4) &&& 3) <<< 4 = x := by
  have low : ∀ x : UInt8, x < 64 → x &&& 15 = 0 → (x >>> 4 &&& 3) <<< 4 = x := by
    decide +kernel
  have gone : ((w <<< 2 ||| x >>> 4) &&& 3) <<< 4 = (x >>> 4 &&& 3) <<< 4 := by
    refine byte_ext fun i hi => ?_
    interval_cases i <;> simp
  rw [gone, low x hx spared]

/-- The third value of a text that ends after two bytes. -/
theorem value₃_of_bytes_two (hy : y < 64) (spared : y &&& 3 = 0) :
    ((x <<< 4 ||| y >>> 2) &&& 15) <<< 2 = y := by
  have low : ∀ y : UInt8, y < 64 → y &&& 3 = 0 → (y >>> 2 &&& 15) <<< 2 = y := by
    decide +kernel
  have gone : ((x <<< 4 ||| y >>> 2) &&& 15) <<< 2 = (y >>> 2 &&& 15) <<< 2 := by
    refine byte_ext fun i hi => ?_
    interval_cases i <;> simp
  rw [gone, low y hy spared]

/-- A value that holds the last two bits of a byte only has the others zero. -/
theorem spare_of_byte : (a &&& 3) <<< 4 < 64 ∧ (a &&& 3) <<< 4 &&& 15 = 0 := by
  have all : ∀ a : UInt8, (a &&& 3) <<< 4 < 64 ∧ (a &&& 3) <<< 4 &&& 15 = 0 := by decide +kernel
  exact all a

/-- A value that holds the last four bits of a byte only has the others zero. -/
theorem spare_of_bytes_two : (b &&& 15) <<< 2 < 64 ∧ (b &&& 15) <<< 2 &&& 3 = 0 := by
  have all : ∀ b : UInt8, (b &&& 15) <<< 2 < 64 ∧ (b &&& 15) <<< 2 &&& 3 = 0 := by decide +kernel
  exact all b

end Bits

/-! ## Groups -/

section Groups

variable {a b c w x y z : UInt8} {bytes rest : List UInt8}

theorem decodeGroup?_encode :
    decodeGroup? (digit (a >>> 2)) (digit ((a &&& 3) <<< 4 ||| b >>> 4))
      (digit ((b &&& 15) <<< 2 ||| c >>> 6)) (digit (c &&& 63)) = some [a, b, c] := by
  simp [decodeGroup?, value?_digit value₁_lt, value?_digit value₂_lt, value?_digit value₃_lt,
    value?_digit value₄_lt, byte₁_of_values, byte₂_of_values, byte₃_of_values]

/-- A group of four digits is what is written for its three bytes. -/
theorem encode_of_decodeGroup? (h : decodeGroup? w x y z = some bytes) :
    encode (bytes ++ rest) = w :: x :: y :: z :: encode rest := by
  simp only [decodeGroup?, Option.bind_eq_bind, Option.bind_eq_some_iff, value?_eq_some_iff,
    Option.some.injEq] at h
  obtain ⟨w', ⟨hw, rfl⟩, x', ⟨hx, rfl⟩, y', ⟨hy, rfl⟩, z', ⟨hz, rfl⟩, rfl⟩ := h
  simp [encode, value₁_of_bytes hw hx, value₂_of_bytes hx hy, value₃_of_bytes hy hz,
    value₄_of_bytes hz]

/-- The last group is read like any other if it has a fourth digit. -/
theorem decodeLast?_of_ne_fill (hy : y ≠ fill) (hz : z ≠ fill) :
    decodeLast? w x y z = decodeGroup? w x y z := by
  simp [decodeLast?, decodeGroup?, hy, hz]

theorem encode_of_decodeLast? (h : decodeLast? w x y z = some bytes) :
    encode bytes = [w, x, y, z] := by
  by_cases filled : z = fill
  · subst filled
    simp only [decodeLast?, Option.bind_eq_bind, Option.bind_eq_some_iff,
      value?_eq_some_iff] at h
    obtain ⟨w', ⟨hw, rfl⟩, x', ⟨hx, rfl⟩, h⟩ := h
    by_cases twice : y = fill
    · simp only [twice, ↓reduceIte, true_and, Option.ite_none_right_eq_some,
        Option.some.injEq] at h
      obtain ⟨spared, rfl⟩ := h
      simp [encode, twice, value₁_of_bytes hw hx, value₂_of_byte hx spared]
    · simp only [twice, ↓reduceIte, Option.bind_eq_some_iff, value?_eq_some_iff,
        Option.ite_none_right_eq_some, Option.some.injEq] at h
      obtain ⟨y', ⟨hy, rfl⟩, spared, rfl⟩ := h
      simp [encode, value₁_of_bytes hw hx, value₂_of_bytes hx hy, value₃_of_bytes_two hy spared]
  · have third : y ≠ fill := by
      rintro rfl
      simp [decodeLast?, filled] at h
    rw [decodeLast?_of_ne_fill third filled] at h
    have written : encode (bytes ++ []) = w :: x :: y :: z :: encode [] := encode_of_decodeGroup? h
    rwa [List.append_nil] at written

end Groups

/-! ## Texts -/

theorem decode?_encode (bytes : List UInt8) : decode? (encode bytes) = some bytes := by
  fun_induction encode bytes with
  | case1 => rfl
  | case2 a =>
    have last : (a &&& 3) <<< 4 ||| (0 : UInt8) >>> 4 = (a &&& 3) <<< 4 := by simp
    have first := byte₁_of_values (a := a) (b := 0)
    rw [last] at first
    simp [decode?, decodeLast?, value?_digit value₁_lt, value?_digit spare_of_byte.1,
      spare_of_byte.2, first]
  | case3 a b =>
    have last : (b &&& 15) <<< 2 ||| (0 : UInt8) >>> 6 = (b &&& 15) <<< 2 := by simp
    have second := byte₂_of_values (a := a) (b := b) (c := 0)
    rw [last] at second
    simp [decode?, decodeLast?, value?_digit value₁_lt, value?_digit value₂_lt,
      value?_digit spare_of_bytes_two.1, digit_ne_fill spare_of_bytes_two.1,
      spare_of_bytes_two.2, byte₁_of_values, second]
  | case4 a b c rest ih =>
    cases hrest : encode rest with
    | nil =>
      rw [hrest] at ih
      cases ih
      rw [decode?, decodeLast?_of_ne_fill (digit_ne_fill value₃_lt) (digit_ne_fill value₄_lt),
        decodeGroup?_encode]
    | cons d ds =>
      rw [hrest] at ih
      simp [decode?, decodeGroup?_encode, ih]

/-- A text stands for a byte string if it is the text that is written for it. -/
theorem decode?_eq_some_iff {text bytes : List UInt8} :
    decode? text = some bytes ↔ text = encode bytes := by
  refine ⟨fun h => ?_, fun h => h ▸ decode?_encode bytes⟩
  fun_induction decode? text generalizing bytes with
  | case1 =>
    cases h
    rfl
  | case2 w x y z => exact (encode_of_decodeLast? h).symm
  | case3 w x y z rest _ ih =>
    simp only [Option.bind_eq_bind, Option.bind_eq_some_iff, Option.some.injEq] at h
    obtain ⟨front, hfront, back, hback, rfl⟩ := h
    rw [encode_of_decodeGroup? hfront, ih hback]
  | case4 => cases h

theorem length_encode (bytes : List UInt8) :
    (encode bytes).length = 4 * ((bytes.length + 2) / 3) := by
  fun_induction encode bytes with
  | case1 => rfl
  | case2 => simp
  | case3 => simp
  | case4 a b c rest ih =>
    simp only [List.length_cons, ih]
    omega

/-- What is written is digits, then signs that fill up, and no bit more than the bytes have. -/
theorem encode_shape (bytes : List UInt8) : Shape bytes.length (encode bytes) := by
  fun_induction encode bytes with
  | case1 => exact ⟨[], rfl, by simp, by simp⟩
  | case2 a =>
    refine ⟨[a >>> 2, (a &&& 3) <<< 4], rfl, ?_, ?_⟩
    · simp [value₁_lt, spare_of_byte.1]
    · rintro v ⟨⟩
      exact spare_of_byte.2
  | case3 a b =>
    refine ⟨[a >>> 2, (a &&& 3) <<< 4 ||| b >>> 4, (b &&& 15) <<< 2], rfl, ?_, ?_⟩
    · simp [value₁_lt, value₂_lt, spare_of_bytes_two.1]
    · rintro v ⟨⟩
      exact spare_of_bytes_two.2
  | case4 a b c rest ih =>
    obtain ⟨values, hrest, small, spared⟩ := ih
    have same : fills (rest.length + 1 + 1 + 1) = fills rest.length := by
      simp only [fills]
      omega
    refine ⟨a >>> 2 :: ((a &&& 3) <<< 4 ||| b >>> 4) :: ((b &&& 15) <<< 2 ||| c >>> 6)
      :: (c &&& 63) :: values, ?_, ?_, ?_⟩
    · simp [hrest, same]
    · simpa [value₁_lt, value₂_lt, value₃_lt, value₄_lt] using small
    · cases values with
      | nil =>
        rintro v ⟨⟩
        have whole : fills rest.length = 0 := by
          have length := length_encode rest
          simp only [hrest, List.map_nil, List.nil_append, List.length_replicate] at length
          simp only [fills] at length ⊢
          omega
        simp [same, whole, spare]
      | cons d ds => simpa [same] using spared

end PluginHost.Base64
