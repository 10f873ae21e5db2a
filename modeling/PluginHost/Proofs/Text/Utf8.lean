import Mathlib.Data.FinEnum
import PluginHost.Text.Utf8

/-!
# UTF-8 is read as it is written

Results:
1. `decode_encode_append`: the bytes of characters are read as those characters, whatever
   follows.
2. `text?_eq_some_iff`: bytes have a text if they are read as its characters.
3. `bytesOf_lt_bytesOf`: texts are ordered as their bytes are.
-/

namespace PluginHost.Utf8

/-! ## The bytes of one character -/

section Lead

variable {b : UInt8}

theorem lead_two (h : 0xC2 ≤ b ∧ b < 0xE0) :
    lead b = ([], some ⟨[b], b.toNat - 0xC0, 1, 0x80, 0xBF⟩) := by
  have all : ∀ b : UInt8, 0xC2 ≤ b ∧ b < 0xE0 →
      lead b = ([], some ⟨[b], b.toNat - 0xC0, 1, 0x80, 0xBF⟩) := by decide +kernel
  exact all b h

theorem lead_three (h : 0xE0 ≤ b ∧ b < 0xF0) :
    lead b = ([], some ⟨[b], b.toNat - 0xE0, 2, if b = 0xE0 then 0xA0 else 0x80,
      if b = 0xED then 0x9F else 0xBF⟩) := by
  have all : ∀ b : UInt8, 0xE0 ≤ b ∧ b < 0xF0 →
      lead b = ([], some ⟨[b], b.toNat - 0xE0, 2, if b = 0xE0 then 0xA0 else 0x80,
        if b = 0xED then 0x9F else 0xBF⟩) := by decide +kernel
  exact all b h

theorem lead_four (h : 0xF0 ≤ b ∧ b ≤ 0xF4) :
    lead b = ([], some ⟨[b], b.toNat - 0xF0, 3, if b = 0xF0 then 0x90 else 0x80,
      if b = 0xF4 then 0x8F else 0xBF⟩) := by
  have all : ∀ b : UInt8, 0xF0 ≤ b ∧ b ≤ 0xF4 →
      lead b = ([], some ⟨[b], b.toNat - 0xF0, 3, if b = 0xF0 then 0x90 else 0x80,
        if b = 0xF4 then 0x8F else 0xBF⟩) := by decide +kernel
  exact all b h

end Lead

section Continued

variable {p : Pending} {b b₁ b₂ b₃ b₄ : UInt8} {i j k l : Nat} {rest : List UInt8}

/-- The last byte of a character, with its six bits `k`. -/
theorem decodeFrom_last (hb : b.toNat = k + 0x80) (low : p.low.toNat ≤ k + 0x80)
    (high : k + 0x80 ≤ p.high.toNat) (owed : p.owed ≤ 1) :
    decodeFrom (some p) (b :: rest) =
      .char (Char.ofNat (p.code * 64 + k)) :: decodeFrom none rest := by
  have within : p.low ≤ b ∧ b ≤ p.high := by
    rw [UInt8.le_iff_toNat_le, UInt8.le_iff_toNat_le, hb]
    exact ⟨low, high⟩
  simp only [decodeFrom, Pending.next, if_pos within, if_pos owed, hb, Nat.add_sub_cancel,
    List.singleton_append]

/-- A byte of a character that is not the last, with its six bits `k`. -/
theorem decodeFrom_middle (hb : b.toNat = k + 0x80) (low : p.low.toNat ≤ k + 0x80)
    (high : k + 0x80 ≤ p.high.toNat) (owed : ¬ p.owed ≤ 1) :
    decodeFrom (some p) (b :: rest) =
      decodeFrom (some ⟨p.seen ++ [b], p.code * 64 + k, p.owed - 1, 0x80, 0xBF⟩) rest := by
  have within : p.low ≤ b ∧ b ≤ p.high := by
    rw [UInt8.le_iff_toNat_le, UInt8.le_iff_toNat_le, hb]
    exact ⟨low, high⟩
  simp only [decodeFrom, Pending.next, if_pos within, if_neg owed, hb, Nat.add_sub_cancel,
    List.nil_append]

theorem decode_two (h₁ : b₁.toNat = i + 0xC0) (h₂ : b₂.toNat = j + 0x80) (hi : 2 ≤ i ∧ i < 32)
    (hj : j < 64) :
    decode (b₁ :: b₂ :: rest) = .char (Char.ofNat (i * 64 + j)) :: decode rest := by
  have first : 0xC2 ≤ b₁ ∧ b₁ < 0xE0 := by
    simp only [UInt8.le_iff_toNat_le, UInt8.lt_iff_toNat_lt, h₁, UInt8.reduceToNat]
    omega
  rw [decode, decodeFrom, lead_two first, List.nil_append,
    decodeFrom_last h₂ (by simp) (by simp; omega) (by simp)]
  simp only [h₁, Nat.add_sub_cancel, decode]

theorem decode_three (h₁ : b₁.toNat = i + 0xE0) (h₂ : b₂.toNat = j + 0x80)
    (h₃ : b₃.toNat = k + 0x80) (hi : i < 16) (hj : j < 64) (hk : k < 64)
    (long : i = 0 → 32 ≤ j) (character : i = 13 → j < 32) :
    decode (b₁ :: b₂ :: b₃ :: rest) =
      .char (Char.ofNat ((i * 64 + j) * 64 + k)) :: decode rest := by
  have first : 0xE0 ≤ b₁ ∧ b₁ < 0xF0 := by
    simp only [UInt8.le_iff_toNat_le, UInt8.lt_iff_toNat_lt, h₁, UInt8.reduceToNat]
    omega
  have low : (if b₁ = 0xE0 then 0xA0 else 0x80 : UInt8).toNat ≤ j + 0x80 := by
    split
    · next edge =>
      simp only [edge, UInt8.reduceToNat] at h₁ ⊢
      omega
    · simp only [UInt8.reduceToNat]
      omega
  have high : j + 0x80 ≤ (if b₁ = 0xED then 0x9F else 0xBF : UInt8).toNat := by
    split
    · next edge =>
      simp only [edge, UInt8.reduceToNat] at h₁ ⊢
      omega
    · simp only [UInt8.reduceToNat]
      omega
  rw [decode, decodeFrom, lead_three first, List.nil_append,
    decodeFrom_middle h₂ low high (by simp),
    decodeFrom_last h₃ (by simp) (by simp; omega) (by simp)]
  simp only [h₁, Nat.add_sub_cancel, decode]

theorem decode_four (h₁ : b₁.toNat = i + 0xF0) (h₂ : b₂.toNat = j + 0x80)
    (h₃ : b₃.toNat = k + 0x80) (h₄ : b₄.toNat = l + 0x80) (hi : i ≤ 4) (hj : j < 64)
    (hk : k < 64) (hl : l < 64) (long : i = 0 → 16 ≤ j) (character : i = 4 → j < 16) :
    decode (b₁ :: b₂ :: b₃ :: b₄ :: rest) =
      .char (Char.ofNat (((i * 64 + j) * 64 + k) * 64 + l)) :: decode rest := by
  have first : 0xF0 ≤ b₁ ∧ b₁ ≤ 0xF4 := by
    simp only [UInt8.le_iff_toNat_le, h₁, UInt8.reduceToNat]
    omega
  have low : (if b₁ = 0xF0 then 0x90 else 0x80 : UInt8).toNat ≤ j + 0x80 := by
    split
    · next edge =>
      simp only [edge, UInt8.reduceToNat] at h₁ ⊢
      omega
    · simp only [UInt8.reduceToNat]
      omega
  have high : j + 0x80 ≤ (if b₁ = 0xF4 then 0x8F else 0xBF : UInt8).toNat := by
    split
    · next edge =>
      simp only [edge, UInt8.reduceToNat] at h₁ ⊢
      omega
    · simp only [UInt8.reduceToNat]
      omega
  rw [decode, decodeFrom, lead_four first, List.nil_append,
    decodeFrom_middle h₂ low high (by simp),
    decodeFrom_middle h₃ (by simp) (by simp; omega) (by simp),
    decodeFrom_last h₄ (by simp) (by simp; omega) (by simp)]
  simp only [h₁, Nat.add_sub_cancel, decode]

end Continued

/-! ## Characters -/

theorem toNat_ofNat_of_lt {n : Nat} (h : n < 256) : (UInt8.ofNat n).toNat = n := by
  rw [UInt8.toNat_ofNat']
  exact Nat.mod_eq_of_lt h

/-- The bytes of a character are read as that character. -/
theorem decode_utf8EncodeChar_append (c : Char) (rest : List UInt8) :
    decode (String.utf8EncodeChar c ++ rest) = .char c :: decode rest := by
  have valid := c.valid
  have same : Char.ofNat c.val.toNat = c := Char.ofNat_toNat c
  simp only [UInt32.isValidChar, Nat.isValidChar] at valid
  unfold String.utf8EncodeChar
  generalize c.val.toNat = v at *
  dsimp only
  split
  · next one =>
    have hb : (UInt8.ofNat v).toNat = v := toNat_ofNat_of_lt (by omega)
    have ascii : UInt8.ofNat v < 0x80 := by
      rw [UInt8.lt_iff_toNat_lt, hb]
      exact Nat.lt_succ_of_le one
    rw [List.singleton_append, decode_ascii_cons ascii, hb, same]
  split
  · rw [List.cons_append, List.singleton_append,
      decode_two (toNat_ofNat_of_lt (by omega)) (toNat_ofNat_of_lt (by omega)) (by omega)
        (by omega),
      show v / 64 % 32 * 64 + v % 64 = v by omega, same]
  split
  · rw [List.cons_append, List.cons_append, List.singleton_append,
      decode_three (toNat_ofNat_of_lt (by omega)) (toNat_ofNat_of_lt (by omega))
        (toNat_ofNat_of_lt (by omega)) (by omega) (by omega) (by omega) (by omega) (by omega),
      show (v / 4096 % 16 * 64 + v / 64 % 64) * 64 + v % 64 = v by omega, same]
  · rw [List.cons_append, List.cons_append, List.cons_append, List.singleton_append,
      decode_four (toNat_ofNat_of_lt (by omega)) (toNat_ofNat_of_lt (by omega))
        (toNat_ofNat_of_lt (by omega)) (toNat_ofNat_of_lt (by omega)) (by omega) (by omega)
        (by omega) (by omega) (by omega) (by omega),
      show ((v / 262144 % 8 * 64 + v / 4096 % 64) * 64 + v / 64 % 64) * 64 + v % 64 = v by omega,
      same]

/-- The bytes of characters are read as those characters. -/
theorem decode_encode_append (cs : List Char) (rest : List UInt8) :
    decode (encode cs ++ rest) = cs.map .char ++ decode rest := by
  induction cs with
  | nil => rfl
  | cons c cs ih =>
    rw [encode_cons, List.append_assoc, decode_utf8EncodeChar_append, ih, List.map_cons,
      List.cons_append]

theorem decode_encode (cs : List Char) : decode (encode cs) = cs.map .char := by
  simpa using decode_encode_append cs []

/-! ## Texts -/

theorem charsOf_map_char (before : Nat) (cs : List Char) :
    charsOf before (cs.map .char) = .ok cs := by
  induction cs generalizing before with
  | nil => rfl
  | cons c cs ih => simp [charsOf, ih, Except.map]

theorem eq_map_char_of_charsOf {before : Nat} {pieces : List Piece} {cs : List Char}
    (h : charsOf before pieces = .ok cs) : pieces = cs.map .char := by
  induction pieces generalizing before cs with
  | nil =>
    cases h
    rfl
  | cons piece rest ih =>
    cases piece with
    | bad bytes cut => cases h
    | char c =>
      unfold charsOf at h
      cases hrest : charsOf (before + c.utf8Size) rest with
      | error f => simp [hrest, Except.map] at h
      | ok more =>
        simp only [hrest, Except.map, Except.ok.injEq] at h
        rw [← h, ih hrest, List.map_cons]

/-- Bytes have a text if they are read as its characters. -/
theorem text?_eq_some_iff {bytes : List UInt8} {s : String} :
    text? bytes = some s ↔ decode bytes = s.toList.map .char := by
  unfold text? text
  constructor
  · intro h
    cases hcs : charsOf 0 (decode bytes) with
    | error f => simp [hcs, Except.map, Except.toOption] at h
    | ok cs =>
      simp only [hcs, Except.map, Except.toOption, Option.some.injEq] at h
      rw [eq_map_char_of_charsOf hcs, ← h, String.toList_ofList]
  · intro h
    simp [h, charsOf_map_char, Except.map, Except.toOption]

theorem text?_encode (cs : List Char) : text? (encode cs) = some (String.ofList cs) := by
  rw [text?_eq_some_iff, decode_encode, String.toList_ofList]

/-! ## The order of texts -/

section Order

variable {m n : Nat}

theorem ofNat_lt_ofNat_iff (hm : m < 256) (hn : n < 256) :
    UInt8.ofNat m < UInt8.ofNat n ↔ m < n := by
  rw [UInt8.lt_iff_toNat_lt, toNat_ofNat_of_lt hm, toNat_ofNat_of_lt hn]

theorem ofNat_eq_ofNat_iff (hm : m < 256) (hn : n < 256) :
    UInt8.ofNat m = UInt8.ofNat n ↔ m = n := by
  rw [← UInt8.toNat_inj, toNat_ofNat_of_lt hm, toNat_ofNat_of_lt hn]

/-- Of two numbers the smaller has the smaller digits in base 64, the first digit that
differs deciding. -/
theorem lex_of_lt (h : m < n) : m / 64 < n / 64 ∨ m / 64 = n / 64 ∧ m % 64 < n % 64 := by
  omega

end Order

/-- Different characters are told apart by their bytes, whatever follows. -/
theorem utf8EncodeChar_append_lt {c d : Char} (h : c < d) (x y : List UInt8) :
    String.utf8EncodeChar c ++ x < String.utf8EncodeChar d ++ y := by
  have hc := c.valid
  have hd := d.valid
  have less : c.val.toNat < d.val.toNat := h
  simp only [UInt32.isValidChar, Nat.isValidChar] at hc hd
  unfold String.utf8EncodeChar
  generalize c.val.toNat = v at *
  generalize d.val.toNat = w at *
  have hv : v / 4096 = v / 64 / 64 ∧ v / 262144 % 8 = v / 64 / 64 / 64 := by omega
  have hw : w / 4096 = w / 64 / 64 ∧ w / 262144 % 8 = w / 64 / 64 / 64 := by omega
  -- The digits of both numbers in base 64, which their bytes hold.
  have last := lex_of_lt less
  have third : v / 64 < w / 64 → _ := lex_of_lt
  have second : v / 64 / 64 < w / 64 / 64 → _ := lex_of_lt
  dsimp only
  split_ifs <;>
    simp (disch := omega) only [List.cons_append, List.nil_append, List.cons_lt_cons_iff,
      ofNat_lt_ofNat_iff, ofNat_eq_ofNat_iff, hv, hw] <;>
    omega

theorem utf8EncodeChar_ne_nil (c : Char) : String.utf8EncodeChar c ≠ [] := by
  unfold String.utf8EncodeChar
  dsimp only
  split_ifs <;> simp

theorem encode_lt_encode {as bs : List Char} (h : as < bs) : encode as < encode bs := by
  induction as generalizing bs with
  | nil =>
    cases bs with
    | nil => simp at h
    | cons b bs =>
      rw [encode_nil, encode_cons]
      cases hb : String.utf8EncodeChar b with
      | nil => exact absurd hb (utf8EncodeChar_ne_nil b)
      | cons x xs => exact List.nil_lt_cons x _
  | cons a as ih =>
    cases bs with
    | nil => simp at h
    | cons b bs =>
      rcases List.cons_lt_cons_iff.mp h with less | ⟨rfl, rest⟩
      · exact utf8EncodeChar_append_lt less _ _
      · exact List.append_left_lt (ih rest)

/-- Texts are ordered as their bytes are. -/
theorem bytesOf_lt_bytesOf {s t : String} (h : s < t) : bytesOf s < bytesOf t :=
  encode_lt_encode h

end PluginHost.Utf8
