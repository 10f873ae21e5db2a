import PluginHost.Proofs.Decimal.Shortest
import PluginHost.Proofs.Json.Numeral
import PluginHost.Proofs.Text.Digits

/-!
# The text of a number is a literal

* `Number.literal` is the literal that a number is written as.

Results:
1. `Number.chars_literal`: the text of any number is a literal of the grammar.
2. `Number.number?_literal`: an integer of 64 bits is read back as it was.
-/

namespace PluginHost.Json

open Ascii (isDigit_of_mem_toDigits head_toDigits decimal_toDigits)

/-- The number is an integer of 64 bits, with or without a sign. -/
def Number.IsInteger : Number → Prop
  | .whole n => n < 2 ^ 64
  | .negative n => 0 < n ∧ n ≤ 2 ^ 63
  | .real _ => False

section Digits

variable {ds : List Char} {n : Nat} {c : Char}

theorem digits_toDigits (n : Nat) : Digits (Nat.toDigits 10 n) :=
  ⟨Nat.toDigits_ne_nil, isDigit_of_mem_toDigits⟩

theorem Digits.integerPart (h : Digits ds) (head : ds.head? ≠ some '0') : IntegerPart ds :=
  ⟨h, fun zero => absurd zero head⟩

theorem integerPart_toDigits (n : Nat) : IntegerPart (Nat.toDigits 10 n) := by
  by_cases zero : n = 0
  · rw [zero]
    exact ⟨digits_toDigits 0, fun _ => rfl⟩
  · exact (digits_toDigits n).integerPart (head_toDigits zero)

/-- Digits in front of others. -/
theorem Digits.take (h : Digits ds) (head : ds.head? ≠ some '0') (pos : 0 < n) :
    IntegerPart (ds.take n) := by
  refine Digits.integerPart ⟨?_, fun c hc => h.2 c (List.mem_of_mem_take hc)⟩ ?_
  · simp [h.1]
    omega
  · rwa [List.head?_take, if_neg (by omega)]

/-- Digits after others. -/
theorem Digits.drop (h : Digits ds) (left : n < ds.length) : Digits (ds.drop n) := by
  refine ⟨?_, fun c hc => h.2 c (List.mem_of_mem_drop hc)⟩
  simpa using left

theorem isDigit_of_mem_zeros (h : c ∈ List.replicate n '0') : Ascii.isDigit c = true := by
  rw [List.eq_of_mem_replicate h]
  rfl

end Digits

section Layout

variable {digits : Nat}

/-- The exponent of a place. -/
theorem exponent_chars (e : Int) : ∃ x : Exponent,
    x.chars = 'e' :: (if 0 ≤ e then layout.plus ++ toString e.toNat
      else "-" ++ toString (-e).toNat).toList := by
  by_cases up : 0 ≤ e
  · refine ⟨⟨'e', ['+'], Nat.toDigits 10 e.toNat, .inl rfl, by simp, digits_toDigits _⟩, ?_⟩
    simp [Exponent.chars, up, layout]
  · refine ⟨⟨'e', ['-'], Nat.toDigits 10 (-e).toNat, .inl rfl, by simp, digits_toDigits _⟩, ?_⟩
    simp [Exponent.chars, up]

/-- A literal without an exponent. -/
theorem decimal_literal (negative : Bool) {whole fraction : List Char} (h : IntegerPart whole)
    (h' : Digits fraction) : ∃ l : Literal, l.negative = negative ∧
      l.unsignedChars = whole ++ '.' :: fraction := by
  refine ⟨⟨negative, whole, some fraction, none, h, by simpa using h'⟩, rfl, ?_⟩
  simp [Literal.unsignedChars, Literal.fractionChars, Literal.exponentChars]

/-- Digits other than zero are laid out as a literal. -/
theorem positive_literal (negative : Bool) (h : digits ≠ 0) (last : Int) : ∃ l : Literal,
    l.negative = negative ∧ l.unsignedChars = (layout.positive digits last).toList := by
  have all := digits_toDigits digits
  have head := head_toDigits h
  have zero : IntegerPart ['0'] := integerPart_digit rfl
  unfold Decimal.Layout.positive
  dsimp only
  generalize Nat.toDigits 10 digits = ds at *
  have pos : 0 < ds.length := List.length_pos_iff.mpr all.1
  split
  · have whole : IntegerPart (ds ++ List.replicate last.toNat '0') := by
      refine Digits.integerPart ⟨by simp [all.1], fun c hc => ?_⟩ ?_
      · rcases List.mem_append.mp hc with hc | hc
        · exact all.2 c hc
        · exact isDigit_of_mem_zeros hc
      · obtain ⟨d, rest, rfl⟩ := List.exists_cons_of_ne_nil all.1
        simpa using head
    obtain ⟨l, hl, chars⟩ := decimal_literal negative whole zero.1
    exact ⟨l, hl, by simp [chars, Decimal.zeros]⟩
  · next small =>
    split
    · next within =>
      have left : ((ds.length : ℤ) + last).toNat < ds.length := by omega
      obtain ⟨l, hl, chars⟩ :=
        decimal_literal negative (all.take (n := ((ds.length : ℤ) + last).toNat) head (by omega))
          (all.drop left)
      exact ⟨l, hl, by simp [chars]⟩
    · split
      · have fraction (n : Nat) : Digits (List.replicate n '0' ++ ds) := by
          refine ⟨by simp [all.1], fun c hc => ?_⟩
          rcases List.mem_append.mp hc with hc | hc
          · exact isDigit_of_mem_zeros hc
          · exact all.2 c hc
        obtain ⟨l, hl, chars⟩ :=
          decimal_literal negative zero (fraction (-(ds.length + last)).toNat)
        exact ⟨l, hl, by simp [chars, Decimal.zeros]⟩
      · obtain ⟨x, hx⟩ := exponent_chars (ds.length + last - 1)
        by_cases single : ds.length = 1
        · refine ⟨⟨negative, ds, none, some x, all.integerPart head, digits_of_none⟩, rfl, ?_⟩
          simp [Literal.unsignedChars, Literal.fractionChars, Literal.exponentChars, hx, single,
            layout]
        · have fraction : Digits (ds.drop 1) := all.drop (by omega)
          refine ⟨⟨negative, ds.take 1, some (ds.drop 1), some x, all.take head Nat.one_pos,
            fun _ same => Option.some.inj same ▸ fraction⟩, rfl, ?_⟩
          simp [Literal.unsignedChars, Literal.fractionChars, Literal.exponentChars, hx, single,
            layout]

end Layout

namespace Number

variable {n : Number}

theorem render_literal (bits : UInt64) : ∃ l : Literal, l.chars = (layout.render bits).toList := by
  unfold Decimal.Layout.render
  dsimp only
  split
  · have zero : IntegerPart ['0'] := integerPart_digit rfl
    obtain ⟨l, negative, chars⟩ := decimal_literal (Decimal.isNegative bits) zero zero.1
    refine ⟨l, ?_⟩
    rw [Literal.chars, Literal.signChars, negative, chars]
    cases Decimal.isNegative bits <;> simp [layout]
  · next mantissa =>
    obtain ⟨l, negative, chars⟩ := positive_literal (Decimal.isNegative bits)
      (Decimal.shortest_ne_zero mantissa) (Decimal.shortest (.ofBits bits)).2
    refine ⟨l, ?_⟩
    rw [Literal.chars, Literal.signChars, negative, chars]
    cases Decimal.isNegative bits <;> simp

/-- The literal of an integer. -/
def integerLiteral (negative : Bool) (n : Nat) : Literal :=
  ⟨negative, Nat.toDigits 10 n, none, none, integerPart_toDigits n, digits_of_none⟩

theorem number?_integerLiteral (negative : Bool) (n : Nat)
    (h : if negative then 0 < n ∧ n ≤ 2 ^ 63 else n < 2 ^ 64) :
    (integerLiteral negative n).number? = some (if negative then .negative n else .whole n) := by
  have value : Ascii.decimal (integerLiteral negative n).whole = n := decimal_toDigits n
  have integral : (integerLiteral negative n).Integral := by
    refine ⟨rfl, rfl, ?_⟩
    rw [value]
    exact h
  rw [Literal.number?_of_integral integral, value]
  rfl

theorem exists_literal (n : Number) :
    ∃ l : Literal, l.chars = n.text.toList ∧ (n.IsInteger → l.number? = some n) := by
  cases n with
  | whole n =>
    refine ⟨integerLiteral false n, ?_, fun h => number?_integerLiteral false n h⟩
    simp [Literal.chars, Literal.signChars, Literal.unsignedChars, Literal.fractionChars,
      Literal.exponentChars, integerLiteral, Number.text]
  | negative n =>
    refine ⟨integerLiteral true n, ?_, fun h => number?_integerLiteral true n h⟩
    simp [Literal.chars, Literal.signChars, Literal.unsignedChars, Literal.fractionChars,
      Literal.exponentChars, integerLiteral, Number.text]
  | real bits =>
    obtain ⟨l, chars⟩ := render_literal bits
    exact ⟨l, chars, False.elim⟩

/-- The literal that a number is written as. -/
noncomputable def literal (n : Number) : Literal :=
  n.exists_literal.choose

/-- The text of any number is a literal. -/
theorem chars_literal (n : Number) : n.literal.chars = n.text.toList :=
  n.exists_literal.choose_spec.1

/-- An integer of 64 bits is read back as it was. -/
theorem number?_literal (h : n.IsInteger) : n.literal.number? = some n :=
  n.exists_literal.choose_spec.2 h

end Number

end PluginHost.Json
