import PluginHost.Proofs.Text.Utf8
import PluginHost.Text.Terminated

/-!
# Bytes and their texts

Each byte is in one piece, and the pieces put one after the other are the bytes again. So
the bytes that have a text are those the text is written with, and no others.

A text without a NUL can stand in memory with a NUL behind it: it is read back whole.

Results:
1. `Utf8.decode_bytes`: the pieces hold all bytes, in their order.
2. `Utf8.text?_eq_some_iff_bytesOf`: bytes have a text if they are its bytes.
3. `Utf8.lossy_bytesOf`: bytes with a text are read as it also where others are put up with.
4. `Terminated.upToNul_bytesOf`: what is read of a text that ends with a NUL.
-/

namespace PluginHost

namespace Utf8

/-! ## Definitions -/

/-- The bytes of a piece. -/
def Piece.bytes : Piece → List UInt8
  | .char c => String.utf8EncodeChar c
  | .bad bytes _ => bytes

/-- The bytes that are held back between two steps. -/
def held : Option Pending → List UInt8
  | none => []
  | some p => p.seen

/-- Bytes that go on with a character: the first is within bounds of its own. -/
def Continues (low high : UInt8) : List UInt8 → Prop
  | [] => True
  | b :: rest => (low ≤ b ∧ b ≤ high) ∧ Continues 0x80 0xBF rest

/-- The value of a character once bytes go on with it, six bits each. -/
def carried (code : Nat) (bytes : List UInt8) : Nat :=
  bytes.foldl (fun code b => code * 64 + (b.toNat - 0x80)) code

/-- However the character goes on, it is written with the bytes seen so far and those that
follow. -/
def Pending.Sound (p : Pending) : Prop :=
  0 < p.owed ∧ ∀ more : List UInt8, more.length = p.owed → Continues p.low p.high more →
    String.utf8EncodeChar (Char.ofNat (carried p.code more)) = p.seen ++ more

/-- `Kept before r`: a step from the bytes `before` to the pieces and the state `r` loses
nothing.

* `bytes`: each byte is in a piece or held back.
* `sound`: what is held back starts a character. -/
structure Kept (before : List UInt8) (r : List Piece × Option Pending) : Prop where
  bytes : r.1.flatMap Piece.bytes ++ held r.2 = before
  sound : ∀ p, r.2 = some p → p.Sound

end Utf8

namespace Terminated

/-- A text in memory, with a NUL behind it and more after that. -/
def inMemory (s : String) (behind : List UInt8) : Terminated :=
  some (upToNul (Utf8.bytesOf s ++ 0 :: behind))

/-- The pointer is null, or what it points to is not UTF-8. -/
def NoText (p : Terminated) : Prop :=
  ∀ s, p ≠ some (Utf8.bytesOf s)

end Terminated

namespace Utf8

/-! ## Writing one character -/

section Character

variable {b b₁ b₂ b₃ b₄ : UInt8} {i j k l v : Nat}

theorem toNat_ofNat_of_isValidChar (valid : v.isValidChar) : (Char.ofNat v).val.toNat = v := by
  rw [Char.ofNat, dif_pos valid]
  rfl

theorem ofNat_eq_of_toNat (h : b.toNat = v) : UInt8.ofNat v = b := by
  rw [← h, UInt8.ofNat_toNat]

theorem utf8EncodeChar_one (h : b < 0x80) :
    String.utf8EncodeChar (Char.ofNat b.toNat) = [b] := by
  have small : b.toNat < 0x80 := UInt8.lt_iff_toNat_lt.mp h
  have value : (Char.ofNat b.toNat).val.toNat = b.toNat :=
    toNat_ofNat_of_isValidChar (.inl (Nat.lt_trans small (by decide)))
  unfold String.utf8EncodeChar
  rw [value]
  dsimp only
  rw [if_pos (Nat.le_of_lt_succ small), UInt8.ofNat_toNat]

theorem utf8EncodeChar_two (h₁ : b₁.toNat = i + 0xC0) (h₂ : b₂.toNat = j + 0x80)
    (hi : 2 ≤ i ∧ i < 32) (hj : j < 64) :
    String.utf8EncodeChar (Char.ofNat (i * 64 + j)) = [b₁, b₂] := by
  have value : (Char.ofNat (i * 64 + j)).val.toNat = i * 64 + j :=
    toNat_ofNat_of_isValidChar (.inl (by omega))
  unfold String.utf8EncodeChar
  rw [value]
  dsimp only
  rw [if_neg (by omega), if_pos (by omega), ofNat_eq_of_toNat (b := b₁) (by omega),
    ofNat_eq_of_toNat (b := b₂) (by omega)]

theorem utf8EncodeChar_three (h₁ : b₁.toNat = i + 0xE0) (h₂ : b₂.toNat = j + 0x80)
    (h₃ : b₃.toNat = k + 0x80) (hi : i < 16) (hj : j < 64) (hk : k < 64)
    (long : i = 0 → 32 ≤ j) (character : i = 13 → j < 32) :
    String.utf8EncodeChar (Char.ofNat ((i * 64 + j) * 64 + k)) = [b₁, b₂, b₃] := by
  have value : (Char.ofNat ((i * 64 + j) * 64 + k)).val.toNat = (i * 64 + j) * 64 + k :=
    toNat_ofNat_of_isValidChar (by unfold Nat.isValidChar; omega)
  unfold String.utf8EncodeChar
  rw [value]
  dsimp only
  rw [if_neg (by omega), if_neg (by omega), if_pos (by omega),
    ofNat_eq_of_toNat (b := b₁) (by omega), ofNat_eq_of_toNat (b := b₂) (by omega),
    ofNat_eq_of_toNat (b := b₃) (by omega)]

theorem utf8EncodeChar_four (h₁ : b₁.toNat = i + 0xF0) (h₂ : b₂.toNat = j + 0x80)
    (h₃ : b₃.toNat = k + 0x80) (h₄ : b₄.toNat = l + 0x80) (hi : i ≤ 4) (hj : j < 64)
    (hk : k < 64) (hl : l < 64) (long : i = 0 → 16 ≤ j) (character : i = 4 → j < 16) :
    String.utf8EncodeChar (Char.ofNat (((i * 64 + j) * 64 + k) * 64 + l)) = [b₁, b₂, b₃, b₄] := by
  have value : (Char.ofNat (((i * 64 + j) * 64 + k) * 64 + l)).val.toNat =
      ((i * 64 + j) * 64 + k) * 64 + l :=
    toNat_ofNat_of_isValidChar (by unfold Nat.isValidChar; omega)
  unfold String.utf8EncodeChar
  rw [value]
  dsimp only
  rw [if_neg (by omega), if_neg (by omega), if_neg (by omega),
    ofNat_eq_of_toNat (b := b₁) (by omega), ofNat_eq_of_toNat (b := b₂) (by omega),
    ofNat_eq_of_toNat (b := b₃) (by omega), ofNat_eq_of_toNat (b := b₄) (by omega)]

end Character

/-! ## Steps -/

section Steps

variable {b : UInt8} {p : Pending}

theorem lead_one (h : b < 0x80) : lead b = ([.char (Char.ofNat b.toNat)], none) :=
  if_pos h

theorem lead_bad (two : ¬ (0xC2 ≤ b ∧ b < 0xE0)) (three : ¬ (0xE0 ≤ b ∧ b < 0xF0))
    (four : ¬ (0xF0 ≤ b ∧ b ≤ 0xF4)) (one : ¬ b < 0x80) : lead b = ([.bad [b] false], none) := by
  have all : ∀ b : UInt8, ¬ (0xC2 ≤ b ∧ b < 0xE0) → ¬ (0xE0 ≤ b ∧ b < 0xF0) →
      ¬ (0xF0 ≤ b ∧ b ≤ 0xF4) → ¬ b < 0x80 → lead b = ([.bad [b] false], none) := by
    decide +kernel
  exact all b two three four one

theorem carried_cons (code : Nat) (b : UInt8) (rest : List UInt8) :
    carried code (b :: rest) = carried (code * 64 + (b.toNat - 0x80)) rest := by
  simp only [carried, List.foldl_cons]

/-- The bits of a byte that goes on with a character. -/
theorem bits_of_continuing {low high : UInt8} (within : low ≤ b ∧ b ≤ high)
    (hlow : 0x80 ≤ low.toNat) (hhigh : high.toNat ≤ 0xBF) :
    ∃ j, b.toNat = j + 0x80 ∧ j < 64 ∧ low.toNat ≤ j + 0x80 ∧ j + 0x80 ≤ high.toNat := by
  rw [UInt8.le_iff_toNat_le, UInt8.le_iff_toNat_le] at within
  refine ⟨b.toNat - 0x80, ?_⟩
  omega

theorem sound_two (h : 0xC2 ≤ b ∧ b < 0xE0) :
    Pending.Sound ⟨[b], b.toNat - 0xC0, 1, 0x80, 0xBF⟩ := by
  refine ⟨Nat.one_pos, fun more hlen within => ?_⟩
  obtain ⟨b₂, rfl⟩ := List.length_eq_one_iff.mp hlen
  obtain ⟨j, h₂, hj, -, -⟩ := bits_of_continuing within.1 (by simp) (by simp)
  simp only [UInt8.le_iff_toNat_le, UInt8.lt_iff_toNat_lt, UInt8.reduceToNat] at h
  simp only [carried, List.foldl_cons, List.foldl_nil, h₂, Nat.add_sub_cancel]
  exact utf8EncodeChar_two (by omega) h₂ (by omega) hj

theorem sound_three (h : 0xE0 ≤ b ∧ b < 0xF0) :
    Pending.Sound ⟨[b], b.toNat - 0xE0, 2, if b = 0xE0 then 0xA0 else 0x80,
      if b = 0xED then 0x9F else 0xBF⟩ := by
  refine ⟨Nat.two_pos, fun more hlen within => ?_⟩
  obtain ⟨b₂, b₃, rfl⟩ := List.length_eq_two.mp hlen
  obtain ⟨j, h₂, hj, low, high⟩ := bits_of_continuing within.1
    (by dsimp only; split <;> simp) (by dsimp only; split <;> simp)
  obtain ⟨k, h₃, hk, -, -⟩ := bits_of_continuing within.2.1 (by simp) (by simp)
  simp only [UInt8.le_iff_toNat_le, UInt8.lt_iff_toNat_lt, UInt8.reduceToNat] at h
  have long : b.toNat - 0xE0 = 0 → 32 ≤ j := by
    intro zero
    have edge : b = 0xE0 := UInt8.toNat_inj.mp (by simp; omega)
    simp only [edge, ↓reduceIte, UInt8.reduceToNat] at low
    omega
  have character : b.toNat - 0xE0 = 13 → j < 32 := by
    intro thirteen
    have edge : b = 0xED := UInt8.toNat_inj.mp (by simp; omega)
    simp only [edge, ↓reduceIte, UInt8.reduceToNat] at high
    omega
  simp only [carried, List.foldl_cons, List.foldl_nil, h₂, h₃, Nat.add_sub_cancel]
  exact utf8EncodeChar_three (by omega) h₂ h₃ (by omega) hj hk long character

theorem sound_four (h : 0xF0 ≤ b ∧ b ≤ 0xF4) :
    Pending.Sound ⟨[b], b.toNat - 0xF0, 3, if b = 0xF0 then 0x90 else 0x80,
      if b = 0xF4 then 0x8F else 0xBF⟩ := by
  refine ⟨Nat.succ_pos 2, fun more hlen within => ?_⟩
  obtain ⟨b₂, b₃, b₄, rfl⟩ := List.length_eq_three.mp hlen
  obtain ⟨j, h₂, hj, low, high⟩ := bits_of_continuing within.1
    (by dsimp only; split <;> simp) (by dsimp only; split <;> simp)
  obtain ⟨k, h₃, hk, -, -⟩ := bits_of_continuing within.2.1 (by simp) (by simp)
  obtain ⟨l, h₄, hl, -, -⟩ := bits_of_continuing within.2.2.1 (by simp) (by simp)
  simp only [UInt8.le_iff_toNat_le, UInt8.reduceToNat] at h
  have long : b.toNat - 0xF0 = 0 → 16 ≤ j := by
    intro zero
    have edge : b = 0xF0 := UInt8.toNat_inj.mp (by simp; omega)
    simp only [edge, ↓reduceIte, UInt8.reduceToNat] at low
    omega
  have character : b.toNat - 0xF0 = 4 → j < 16 := by
    intro four
    have edge : b = 0xF4 := UInt8.toNat_inj.mp (by simp; omega)
    simp only [edge, ↓reduceIte, UInt8.reduceToNat] at high
    omega
  simp only [carried, List.foldl_cons, List.foldl_nil, h₂, h₃, h₄, Nat.add_sub_cancel]
  exact utf8EncodeChar_four (by omega) h₂ h₃ h₄ (by omega) hj hk hl long character

/-- Between characters no byte is lost. -/
theorem kept_lead (b : UInt8) : Kept [b] (lead b) := by
  by_cases one : b < 0x80
  · rw [lead_one one]
    exact ⟨by simp [Piece.bytes, held, utf8EncodeChar_one one], nofun⟩
  by_cases two : 0xC2 ≤ b ∧ b < 0xE0
  · rw [lead_two two]
    exact ⟨rfl, fun p hp => Option.some.inj hp ▸ sound_two two⟩
  by_cases three : 0xE0 ≤ b ∧ b < 0xF0
  · rw [lead_three three]
    exact ⟨rfl, fun p hp => Option.some.inj hp ▸ sound_three three⟩
  by_cases four : 0xF0 ≤ b ∧ b ≤ 0xF4
  · rw [lead_four four]
    exact ⟨rfl, fun p hp => Option.some.inj hp ▸ sound_four four⟩
  rw [lead_bad two three four one]
  exact ⟨rfl, nofun⟩

/-- Inside a character no byte is lost. -/
theorem kept_next (sound : p.Sound) (b : UInt8) : Kept (p.seen ++ [b]) (p.next b) := by
  obtain ⟨owed, whole⟩ := sound
  by_cases within : p.low ≤ b ∧ b ≤ p.high
  · rw [Pending.next, if_pos within]
    by_cases last : p.owed ≤ 1
    · have encoded := whole [b] (Nat.le_antisymm owed last) ⟨within, trivial⟩
      rw [if_pos last]
      constructor
      · simpa [held, Piece.bytes, carried] using encoded
      · simp
    · rw [if_neg last]
      refine ⟨rfl, fun q hq => ?_⟩
      rw [← Option.some.inj hq]
      refine ⟨Nat.sub_pos_of_lt (Nat.not_le.mp last), fun more hlen rest => ?_⟩
      have encoded := whole (b :: more) (by rw [List.length_cons, hlen, Nat.sub_add_cancel owed])
        ⟨within, rest⟩
      rw [carried_cons] at encoded
      rw [encoded, List.append_assoc, List.singleton_append]
  · have kept := kept_lead b
    rw [Pending.next, if_neg within]
    refine ⟨?_, kept.sound⟩
    rw [List.flatMap_cons, List.append_assoc, kept.bytes, Piece.bytes]

end Steps

/-! ## Whole byte strings -/

/-- Each byte is in one piece. -/
theorem decodeFrom_bytes (state : Option Pending) (sound : ∀ p, state = some p → p.Sound)
    (bytes : List UInt8) : (decodeFrom state bytes).flatMap Piece.bytes = held state ++ bytes := by
  -- What a step holds back starts a character again, so the claim holds of the rest.
  induction bytes generalizing state with
  | nil =>
    cases state with
    | none => rfl
    | some p => simp [decodeFrom, Piece.bytes, held]
  | cons b rest ih =>
    cases state with
    | none =>
      have kept := kept_lead b
      rw [decodeFrom, List.flatMap_append, ih _ kept.sound, ← List.append_assoc, kept.bytes]
      rfl
    | some p =>
      have kept := kept_next (sound p rfl) b
      rw [decodeFrom, List.flatMap_append, ih _ kept.sound, ← List.append_assoc, kept.bytes,
        List.append_assoc]
      rfl

theorem decode_bytes (bytes : List UInt8) : (decode bytes).flatMap Piece.bytes = bytes :=
  decodeFrom_bytes none nofun bytes

/-- The bytes that are read as a text are those of the text. -/
theorem text?_eq_some_iff_bytesOf {bytes : List UInt8} {s : String} :
    text? bytes = some s ↔ bytes = bytesOf s := by
  constructor
  · intro h
    rw [text?_eq_some_iff] at h
    rw [← decode_bytes bytes, h, List.flatMap_map]
    rfl
  · rintro rfl
    rw [bytesOf, text?_encode, String.ofList_toList]

theorem bytesOf_injective {s t : String} (same : bytesOf s = bytesOf t) : s = t :=
  Option.some.inj ((text?_eq_some_iff_bytesOf.mpr rfl).symm.trans
    (text?_eq_some_iff_bytesOf.mpr same))

/-- Where characters are read, nothing is put in the place of anything. -/
theorem charsWith_map_char (substitute : Char) (cs : List Char) :
    charsWith substitute (cs.map .char) = cs := by
  induction cs with
  | nil => rfl
  | cons c cs ih => rw [List.map_cons, charsWith, ih]

/-- A text is read back from its bytes as it is. -/
theorem lossy_bytesOf (s : String) : lossy (bytesOf s) = s := by
  rw [lossy, bytesOf, decode_encode, charsWith_map_char, String.ofList_toList]

/-- Bytes that are UTF-8 are read as their text also where others are put up with. -/
theorem lossy_of_text {bytes : List UInt8} {s : String} (text : text? bytes = some s) :
    lossy bytes = s := by
  rw [text?_eq_some_iff_bytesOf.mp text, lossy_bytesOf]

end Utf8

/-! ## Texts that end with a NUL -/

theorem Utf8.ofNat_ne_zero {n : Nat} (pos : 0 < n) (small : n < 256) : UInt8.ofNat n ≠ 0 := by
  intro zero
  have value : (UInt8.ofNat n).toNat = n := toNat_ofNat_of_lt small
  rw [zero] at value
  exact Nat.ne_of_lt pos value

theorem Utf8.ne_zero_of_mem_utf8EncodeChar {c : Char} (text : c ≠ Char.ofNat 0) {b : UInt8}
    (hb : b ∈ String.utf8EncodeChar c) : b ≠ 0 := by
  have pos : 0 < c.val.toNat := by
    refine Nat.pos_of_ne_zero fun zero => text ?_
    rw [← Char.ofNat_toNat c]
    exact congrArg Char.ofNat zero
  unfold String.utf8EncodeChar at hb
  generalize c.val.toNat = v at *
  dsimp only at hb
  split at hb
  · rw [List.mem_singleton.mp hb]
    exact ofNat_ne_zero pos (by omega)
  split at hb
  · simp only [List.mem_cons, List.not_mem_nil, or_false] at hb
    rcases hb with rfl | rfl <;> exact ofNat_ne_zero (by omega) (by omega)
  split at hb
  · simp only [List.mem_cons, List.not_mem_nil, or_false] at hb
    rcases hb with rfl | rfl | rfl <;> exact ofNat_ne_zero (by omega) (by omega)
  · simp only [List.mem_cons, List.not_mem_nil, or_false] at hb
    rcases hb with rfl | rfl | rfl | rfl <;> exact ofNat_ne_zero (by omega) (by omega)

namespace Terminated

theorem ofText?_of_text {s : String} (text : hasNul s = false) :
    ofText? s = some (Utf8.bytesOf s) := by
  simp [ofText?, text]

theorem lossy_bytesOf (s : String) : lossy (some (Utf8.bytesOf s)) = some s :=
  congrArg some (Utf8.lossy_bytesOf s)

/-- There is no NUL in the bytes of a text without one. -/
theorem ne_zero_of_mem_bytesOf {s : String} (text : hasNul s = false) {b : UInt8}
    (hb : b ∈ Utf8.bytesOf s) : b ≠ 0 := by
  obtain ⟨c, hc, hb⟩ := List.mem_flatMap.mp hb
  have char : c ≠ Char.ofNat 0 := by
    intro nul
    simp only [hasNul, List.any_eq_false, decide_eq_true_eq] at text
    exact text c hc nul
  exact Utf8.ne_zero_of_mem_utf8EncodeChar char hb

/-- A text that stands in memory with a NUL behind it is read back whole. -/
theorem upToNul_bytesOf {s : String} (text : hasNul s = false) (behind : List UInt8) :
    upToNul (Utf8.bytesOf s ++ 0 :: behind) = Utf8.bytesOf s := by
  have before : ∀ b ∈ Utf8.bytesOf s, decide (b ≠ 0) = true :=
    fun b hb => decide_eq_true (ne_zero_of_mem_bytesOf text hb)
  rw [upToNul, List.takeWhile_append_of_pos before]
  simp

end Terminated
end PluginHost
