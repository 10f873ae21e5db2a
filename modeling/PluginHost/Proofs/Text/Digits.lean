import Mathlib.Data.List.Induction
import PluginHost.Text.Ascii
import PluginHost.Text.Blank

/-!
# The digits of a number

Results:
1. `decimal_toDigits`: the digits of a number denote it.
2. `head_toDigits`: those of a number other than zero do not start with a zero.
3. `decimal_lt`: so many digits denote no more than so many places hold.
4. `toDigits_decimal`: digits without a superfluous zero are those of the number they denote.
-/

namespace PluginHost.Ascii

variable {n : Nat}

/-- Induction over the digits of a number, the last digit last. -/
theorem digit_induction {motive : Nat → Prop} (one : ∀ n, n < 10 → motive n)
    (more : ∀ n, 10 ≤ n → motive (n / 10) → motive n) (n : Nat) : motive n := by
  induction n using Nat.strongRecOn with
  | ind n ih =>
    by_cases small : n < 10
    · exact one n small
    · exact more n (by omega) (ih (n / 10) (by omega))

theorem toDigits_of_lt (h : n < 10) : Nat.toDigits 10 n = [Nat.digitChar n] :=
  Nat.toDigits_of_lt_base h

theorem toDigits_of_le (h : 10 ≤ n) :
    Nat.toDigits 10 n = Nat.toDigits 10 (n / 10) ++ [Nat.digitChar (n % 10)] :=
  Nat.toDigits_of_base_le (by decide) h

theorem digitChar_of_lt (h : n < 10) : isDigit (Nat.digitChar n) = true ∧
    digitValue (Nat.digitChar n) = n ∧ (n ≠ 0 → Nat.digitChar n ≠ '0') := by
  have all : ∀ n < 10, isDigit (Nat.digitChar n) = true ∧
      digitValue (Nat.digitChar n) = n ∧ (n ≠ 0 → Nat.digitChar n ≠ '0') := by decide
  exact all n h

theorem isDigit_of_mem_toDigits : ∀ c ∈ Nat.toDigits 10 n, isDigit c = true := by
  induction n using digit_induction with
  | one n h => simpa [toDigits_of_lt h] using (digitChar_of_lt h).1
  | more n h ih =>
    intro c hc
    rw [toDigits_of_le h] at hc
    rcases List.mem_append.mp hc with hc | hc
    · exact ih c hc
    · rw [List.mem_singleton.mp hc]
      exact (digitChar_of_lt (Nat.mod_lt n (by decide))).1

/-- A digit is no other mark. -/
theorem ne_of_isDigit {x y : Char} (digit : isDigit x = true) (other : isDigit y = false) :
    x ≠ y := by
  rintro rfl
  rw [digit] at other
  cases other

/-- What holds of the ten digits holds of every digit. -/
theorem of_isDigit {p : Char → Prop} {c : Char} (digit : isDigit c = true)
    (all : ∀ n < 58, isDigit (Char.ofNat n) = true → p (Char.ofNat n)) : p c := by
  have small : c.toNat < 58 := by
    simp only [isDigit, Bool.and_eq_true, decide_eq_true_eq] at digit
    exact Nat.lt_succ_of_le digit.2
  have here := all c.toNat small
  rw [Char.ofNat_toNat] at here
  exact here digit

/-- A digit is no white space. -/
theorem isBlank_of_isDigit {c : Char} (digit : isDigit c = true) : Blank.isBlank c = false :=
  of_isDigit (p := fun c => Blank.isBlank c = false) digit (by decide +kernel)

theorem not_mem_toDigits {c : Char} (other : isDigit c = false) : c ∉ Nat.toDigits 10 n :=
  fun mem => ne_of_isDigit (isDigit_of_mem_toDigits c mem) other rfl

theorem decimal_append (ds : List Char) (d : Char) :
    decimal (ds ++ [d]) = decimal ds * 10 + digitValue d := by
  simp [decimal, decimalFrom]

theorem decimal_cons_zero (ds : List Char) : decimal ('0' :: ds) = decimal ds := rfl

/-- Zeros in front of digits make no difference. -/
theorem decimal_zeros_append (k : Nat) (ds : List Char) :
    decimal (List.replicate k '0' ++ ds) = decimal ds := by
  induction k with
  | zero => rfl
  | succ k ih => rw [List.replicate_succ, List.cons_append, decimal_cons_zero, ih]

theorem digitValue_le {d : Char} (digit : isDigit d = true) : digitValue d ≤ 9 := by
  simp only [isDigit, Bool.and_eq_true, decide_eq_true_eq] at digit
  have high : d.toNat ≤ '9'.toNat := digit.2
  exact Nat.sub_le_sub_right high _

/-- The digit of a digit's value. -/
theorem digitChar_digitValue {d : Char} (digit : isDigit d = true) :
    Nat.digitChar (digitValue d) = d :=
  of_isDigit (p := fun d => Nat.digitChar (digitValue d) = d) digit (by decide +kernel)

/-- So many digits denote no more than so many places hold. -/
theorem decimal_lt {ds : List Char} (digits : ∀ d ∈ ds, isDigit d = true) :
    decimal ds < Nat.pow 10 ds.length := by
  induction ds using List.reverseRecOn with
  | nil => decide
  | append_singleton ds d ih =>
    obtain ⟨before, last⟩ := List.forall_mem_append.mp digits
    have below := ih before
    have digit := digitValue_le (last d List.mem_cons_self)
    rw [decimal_append, List.length_append, List.length_singleton]
    show _ < Nat.pow 10 ds.length * 10
    omega

theorem decimal_toDigits (n : Nat) : decimal (Nat.toDigits 10 n) = n := by
  induction n using digit_induction with
  | one n h =>
    rw [toDigits_of_lt h]
    simpa [decimal, decimalFrom] using (digitChar_of_lt h).2.1
  | more n h ih =>
    rw [toDigits_of_le h, decimal_append, ih, (digitChar_of_lt (Nat.mod_lt n (by decide))).2.1]
    omega

/-- The digits of a number other than zero do not start with a zero. -/
theorem head_toDigits (h : n ≠ 0) : (Nat.toDigits 10 n).head? ≠ some '0' := by
  induction n using digit_induction with
  | one n small => simpa [toDigits_of_lt small] using (digitChar_of_lt small).2.2 h
  | more n large ih =>
    rw [toDigits_of_le large]
    cases hd : Nat.toDigits 10 (n / 10) with
    | nil => exact absurd hd Nat.toDigits_ne_nil
    | cons d ds => simpa [hd] using ih (by omega)

/-- Digits without a superfluous zero are those of the number that they denote. -/
theorem toDigits_decimal {ds : List Char} (digits : ∀ d ∈ ds, isDigit d = true) (nonempty : ds ≠ [])
    (first : ds.head? = some '0' → ds = ['0']) : Nat.toDigits 10 (decimal ds) = ds := by
  induction ds using List.reverseRecOn with
  | nil => exact absurd rfl nonempty
  | append_singleton ds d ih =>
    obtain ⟨before, last⟩ := List.forall_mem_append.mp digits
    have digit := last d List.mem_cons_self
    have small := digitValue_le digit
    cases ds with
    | nil =>
      rw [List.nil_append, toDigits_of_lt (by simpa [decimal, decimalFrom] using by omega)]
      simp [decimal, decimalFrom, digitChar_digitValue digit]
    | cons c ds =>
      -- The first digit is no zero, since another one follows it.
      have nonzero : (c :: ds).head? ≠ some '0' := fun zero => by simpa using first zero
      have known := ih before (List.cons_ne_nil c ds) fun zero => absurd zero nonzero
      have large : decimal (c :: ds) ≠ 0 := by
        intro zero
        rw [zero] at known
        exact nonzero (known ▸ rfl)
      have front : (decimal (c :: ds) * 10 + digitValue d) / 10 = decimal (c :: ds) := by omega
      have back : (decimal (c :: ds) * 10 + digitValue d) % 10 = digitValue d := by omega
      rw [decimal_append, toDigits_of_le (by omega), front, back, known,
        digitChar_digitValue digit]

end PluginHost.Ascii
