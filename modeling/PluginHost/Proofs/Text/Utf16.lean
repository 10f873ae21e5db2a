import PluginHost.Json.StringLiteral

/-!
# UTF-16

A character is written as one unit, or as two if its code does not fit 16 bits: a leading
and a trailing one, both from a range that no character has. A row of units that does not
pair them up has no characters.

* `ofChars` gives the units of characters.
* `chars?` gives the characters of units.

Results:
1. `chars?_eq_some_iff`: units have the characters whose units they are, and no others.
-/

namespace PluginHost.Utf16

open Json (isLeading isTrailing pairChar)

/-! ## Definitions -/

/-- The units of a character. -/
def ofChar (c : Char) : List UInt16 :=
  if c.toNat < 0x10000 then [c.toNat.toUInt16]
  else [(0xD800 + (c.toNat - 0x10000) / 0x400).toUInt16,
    (0xDC00 + (c.toNat - 0x10000) % 0x400).toUInt16]

def ofChars (cs : List Char) : List UInt16 :=
  cs.flatMap ofChar

/-- The characters that units stand for, if every leading unit is followed by a trailing
one and no other trailing one is there. -/
def chars? : List UInt16 → Option (List Char)
  | [] => some []
  | u :: rest =>
    if isTrailing u.toNat then none
    else if isLeading u.toNat then
      match rest with
      | [] => none
      | w :: rest =>
        if isTrailing w.toNat then (chars? rest).map (pairChar u.toNat w.toNat :: ·) else none
    else (chars? rest).map (Char.ofNat u.toNat :: ·)

/-! ## Units and characters -/

theorem toNat_toUInt16_of_lt {n : Nat} (h : n < 0x10000) : n.toUInt16.toNat = n :=
  Nat.mod_eq_of_lt h

/-- The code of a character is no surrogate. -/
theorem valid (c : Char) : c.toNat < 0xD800 ∨ 0xDFFF < c.toNat ∧ c.toNat < 0x110000 :=
  c.valid

/-- The character of a code that is no surrogate has this code. -/
theorem toNat_ofNat {n : Nat} (h : n < 0xD800 ∨ 0xDFFF < n ∧ n < 0x110000) :
    (Char.ofNat n).toNat = n := by
  have hn : n.isValidChar := h
  rw [Char.ofNat, dif_pos hn]
  rfl

/-- The units of a character, and what comes after them. -/
theorem chars?_ofChar_append (c : Char) (us : List UInt16) :
    chars? (ofChar c ++ us) = (chars? us).map (c :: ·) := by
  have hc := valid c
  have same : Char.ofNat c.toNat = c := Char.ofNat_toNat c
  unfold ofChar
  generalize c.toNat = n at *
  split
  · next small =>
    have trailing : isTrailing n = false := by
      simp [isTrailing]
      omega
    have leading : isLeading n = false := by
      simp [isLeading]
      omega
    rw [List.singleton_append, chars?.eq_def]
    simp only [toNat_toUInt16_of_lt small, trailing, leading, Bool.false_eq_true, ↓reduceIte, same]
  · next large =>
    have high : (0xD800 + (n - 0x10000) / 0x400).toUInt16.toNat = 0xD800 + (n - 0x10000) / 0x400 :=
      toNat_toUInt16_of_lt (by omega)
    have low : (0xDC00 + (n - 0x10000) % 0x400).toUInt16.toNat = 0xDC00 + (n - 0x10000) % 0x400 :=
      toNat_toUInt16_of_lt (by omega)
    have first : isTrailing (0xD800 + (n - 0x10000) / 0x400) = false := by
      simp [isTrailing]
      omega
    have leading : isLeading (0xD800 + (n - 0x10000) / 0x400) = true := by
      simp [isLeading]
      omega
    have trailing : isTrailing (0xDC00 + (n - 0x10000) % 0x400) = true := by
      simp [isTrailing]
      omega
    have pair : pairChar (0xD800 + (n - 0x10000) / 0x400) (0xDC00 + (n - 0x10000) % 0x400) = c := by
      rw [← same, pairChar]
      exact congrArg Char.ofNat (by omega)
    rw [List.cons_append, List.singleton_append, chars?.eq_def]
    simp only [high, low, first, leading, trailing, Bool.false_eq_true, ↓reduceIte, pair]

@[simp] theorem ofChars_nil : ofChars [] = [] := rfl

@[simp] theorem ofChars_cons (c : Char) (cs : List Char) :
    ofChars (c :: cs) = ofChar c ++ ofChars cs := rfl

theorem chars?_ofChars (cs : List Char) : chars? (ofChars cs) = some cs := by
  induction cs with
  | nil => rfl
  | cons c cs ih => rw [ofChars_cons, chars?_ofChar_append, ih, Option.map_some]

/-- A unit that is no surrogate is a character. -/
theorem ofChar_of_single {u : UInt16} (trailing : ¬ isTrailing u.toNat = true)
    (leading : ¬ isLeading u.toNat = true) : ofChar (Char.ofNat u.toNat) = [u] := by
  have small : u.toNat < 0x10000 := u.toNat_lt
  have code : (Char.ofNat u.toNat).toNat = u.toNat := by
    simp only [isTrailing, isLeading, Bool.and_eq_true, decide_eq_true_eq] at trailing leading
    exact toNat_ofNat (by omega)
  simp [ofChar, code, small]

/-- A leading unit and a trailing one are a character. -/
theorem ofChar_of_pair {u w : UInt16} (leading : isLeading u.toNat = true)
    (trailing : isTrailing w.toNat = true) : ofChar (pairChar u.toNat w.toNat) = [u, w] := by
  simp only [isTrailing, isLeading, Bool.and_eq_true, decide_eq_true_eq] at trailing leading
  have code : (pairChar u.toNat w.toNat).toNat =
      (u.toNat - 0xD800) * 0x400 + (w.toNat - 0xDC00) + 0x10000 := by
    exact toNat_ofNat (by omega)
  have high : 0xD800 + ((pairChar u.toNat w.toNat).toNat - 0x10000) / 0x400 = u.toNat := by
    omega
  have low : 0xDC00 + ((pairChar u.toNat w.toNat).toNat - 0x10000) % 0x400 = w.toNat := by
    omega
  rw [ofChar, if_neg (by omega), high, low]
  simp

/-- Units have the characters whose units they are, and no others. -/
theorem chars?_eq_some_iff {us : List UInt16} {cs : List Char} :
    chars? us = some cs ↔ us = ofChars cs := by
  refine ⟨fun h => ?_, fun h => h ▸ chars?_ofChars cs⟩
  fun_induction chars? us generalizing cs with
  | case1 =>
    cases h
    rfl
  | case2 => cases h
  | case3 => cases h
  | case4 u _ leading w rest trailing ih =>
    obtain ⟨ds, hds, rfl⟩ := Option.map_eq_some_iff.mp h
    rw [ofChars_cons, ofChar_of_pair leading trailing, ← ih hds]
    rfl
  | case5 => cases h
  | case6 u rest trailing leading ih =>
    obtain ⟨ds, hds, rfl⟩ := Option.map_eq_some_iff.mp h
    rw [ofChars_cons, ofChar_of_single trailing leading, ← ih hds]
    rfl

/-! ## Units without characters -/

section Unpaired

variable {u w : UInt16} {us : List UInt16} {x : Char}

/-- No unit is both. -/
theorem not_isTrailing {n : Nat} (leading : isLeading n = true) : isTrailing n = false := by
  simp only [isLeading, isTrailing, Bool.and_eq_true, decide_eq_true_eq] at *
  simp
  omega

theorem chars?_of_trailing (h : isTrailing u.toNat = true) : chars? (u :: us) = none := by
  simp [chars?.eq_def, h]

theorem chars?_of_unpaired (leading : isLeading u.toNat = true) : chars? [u] = none := by
  simp [chars?.eq_def, leading]

theorem chars?_of_leading (leading : isLeading u.toNat = true)
    (no : isTrailing w.toNat = false) : chars? (u :: w :: us) = none := by
  simp [chars?.eq_def, not_isTrailing leading, leading, no]

/-- A character starts with no trailing unit. -/
theorem head_ofChar (c : Char) : ∃ w ws, ofChar c = w :: ws ∧ isTrailing w.toNat = false := by
  have hc := valid c
  unfold ofChar
  split
  · next small =>
    refine ⟨_, _, rfl, ?_⟩
    rw [toNat_toUInt16_of_lt small]
    simp [isTrailing]
    omega
  · refine ⟨_, _, rfl, ?_⟩
    rw [toNat_toUInt16_of_lt (by omega)]
    simp [isTrailing]
    omega

/-- A leading unit has no character if a character comes after it. -/
theorem chars?_of_leading_ofChar (leading : isLeading u.toNat = true) :
    chars? (u :: (ofChar x ++ us)) = none := by
  obtain ⟨w, ws, there, no⟩ := head_ofChar x
  rw [there, List.cons_append, chars?_of_leading leading no]

end Unpaired

end PluginHost.Utf16
