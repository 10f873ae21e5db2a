import PluginHost.Proofs.Json.Cursor

/-!
# Strings are read to their closing quote

What stands between the quotes of a string gives a row of units, and the string is read if
the units pair up. Which escapes the characters are written with makes no difference.

Results:
1. `Content.gives`: a string is read as the characters of its units, or refused if the
   units have none.
2. `Content.skips`: a string is passed over, whatever its units.
3. `Cursor.rest_of_string`: what is read as a string is one.
-/

namespace PluginHost.Json

open Utf16 (chars? ofChar ofChars)

/-! ## Units in hexadecimal -/

section Units

variable {a b c d x : Char} {u : UInt16} {v n : Nat} {cursor : Cursor} {t : List Char}

theorem IsHexDigit.lt (h : IsHexDigit v x) : v < 16 := by
  rcases h with h | h <;>
  · obtain ⟨small, -⟩ := List.getElem?_eq_some_iff.mp h
    exact small

theorem isHexDigit_of_lt : ∀ n : Fin 128, ∀ v ∈ Ascii.hexValue? (Char.ofNat n),
    "0123456789abcdef".toList[v]? = some (Char.ofNat n) ∨
      "0123456789ABCDEF".toList[v]? = some (Char.ofNat n) := by
  decide +kernel

theorem hexValue?_of_lt : ∀ v : Fin 16,
    ("0123456789abcdef".toList[v.val]?.bind Ascii.hexValue? = some v.val) ∧
      ("0123456789ABCDEF".toList[v.val]?.bind Ascii.hexValue? = some v.val) := by
  decide +kernel

theorem lt_of_hexValue? (h : Ascii.hexValue? x = some v) : x.toNat < 128 := by
  have upTo {y : Char} (le : x ≤ y) (small : y.toNat < 128) : x.toNat < 128 :=
    Nat.lt_of_le_of_lt le small
  simp only [Ascii.hexValue?, Ascii.isDigit, Bool.and_eq_true, decide_eq_true_eq] at h
  split at h
  · next within => exact upTo within.2 (by decide)
  · split at h
    · next within => exact upTo within.2 (by decide)
    · split at h
      · next within => exact upTo within.2 (by decide)
      · cases h

/-- The digits that have a value are those of the grammar. -/
theorem hexValue?_eq_some_iff : Ascii.hexValue? x = some v ↔ IsHexDigit v x := by
  constructor
  · intro h
    have code := isHexDigit_of_lt ⟨x.toNat, lt_of_hexValue? h⟩ v
    simp only [Char.ofNat_toNat] at code
    exact code h
  · intro h
    obtain ⟨lower, upper⟩ := hexValue?_of_lt ⟨v, h.lt⟩
    simp only at lower upper
    rcases h with h | h
    · rwa [h] at lower
    · rwa [h] at upper

theorem unit?_eq_some_iff : unit? a b c d = some n ↔ ∃ i j k l, IsHexDigit i a ∧ IsHexDigit j b ∧
    IsHexDigit k c ∧ IsHexDigit l d ∧ n = ((i * 16 + j) * 16 + k) * 16 + l := by
  simp only [unit?, Option.bind_eq_bind, Option.bind_eq_some_iff, hexValue?_eq_some_iff,
    Option.pure_def, Option.some.injEq]
  constructor
  · rintro ⟨i, hi, j, hj, k, hk, l, hl, same⟩
    exact ⟨i, j, k, l, hi, hj, hk, hl, same.symm⟩
  · rintro ⟨i, j, k, l, hi, hj, hk, hl, same⟩
    exact ⟨i, hi, j, hj, k, hk, l, hl, same.symm⟩

theorem IsUnit.unit? (h : IsUnit u a b c d) : unit? a b c d = some u.toNat :=
  unit?_eq_some_iff.mpr h

/-- Four digits are those of a unit. -/
theorem isUnit_of_unit? (h : unit? a b c d = some n) :
    n.toUInt16.toNat = n ∧ IsUnit n.toUInt16 a b c d := by
  obtain ⟨i, j, k, l, hi, hj, hk, hl, rfl⟩ := unit?_eq_some_iff.mp h
  have small : ((i * 16 + j) * 16 + k) * 16 + l < 0x10000 := by
    have := hi.lt
    have := hj.lt
    have := hk.lt
    have := hl.lt
    omega
  have same := Utf16.toNat_toUInt16_of_lt small
  exact ⟨same, i, j, k, l, hi, hj, hk, hl, same⟩

theorem IsUnit.gives (h : IsUnit u a b c d) (at_ : cursor.At (a :: b :: c :: d :: t)) :
    Gives cursor.hexUnit (some u.toNat) t := by
  have there : cursor.rest = .char a :: .char b :: .char c :: .char d :: t.map .char := at_
  unfold Cursor.hexUnit
  simp only [there, h.unit?]
  exact Gives.ok rfl

theorem Cursor.rest_of_hexUnit {c' : Cursor} (h : cursor.hexUnit = .ok (n, c')) :
    ∃ a b c d, n.toUInt16.toNat = n ∧ IsUnit n.toUInt16 a b c d ∧
      cursor.rest = [a, b, c, d].map .char ++ c'.rest := by
  unfold Cursor.hexUnit at h
  split at h
  · next a b c d rest there =>
    split at h
    · next m digits =>
      cases h
      obtain ⟨same, unit⟩ := isUnit_of_unit? digits
      exact ⟨a, b, c, d, same, unit, there⟩
    · cases h
  · split at h <;> cases h

end Units

/-! ## Escapes of one letter -/

section Short

variable {x y : Char}

/-- The letters that are escapes are those of the grammar. -/
theorem shortEscape?_eq_some_iff : shortEscape? x = some y ↔ (x, y) ∈ shortEscapes := by
  constructor
  · intro h
    unfold shortEscape? at h
    split at h
    · next quote =>
      cases h
      have : x = '"' := Char.toNat_inj.mp quote
      subst this
      decide
    · split at h
      · next slash =>
        cases h
        have : x = '\\' := Char.toNat_inj.mp slash
        subst this
        decide
      · split at h <;> cases h <;> decide
  · intro h
    simp only [shortEscapes, List.mem_cons, Prod.mk.injEq, List.not_mem_nil, or_false] at h
    rcases h with ⟨rfl, rfl⟩ | ⟨rfl, rfl⟩ | ⟨rfl, rfl⟩ | ⟨rfl, rfl⟩ | ⟨rfl, rfl⟩ | ⟨rfl, rfl⟩ |
      ⟨rfl, rfl⟩ | ⟨rfl, rfl⟩ <;> rfl

/-- What stands between the quotes of a string of one character. -/
theorem Content.char (c : Char) (h : c ≠ '"' ∧ c ≠ '\\' ∧ 0x20 ≤ c.toNat) :
    Content (ofChar c) [c] := by
  obtain ⟨quote, slash, control⟩ := h
  simpa using Content.plain quote slash control .nil

theorem ne_u_of_short (h : (x, y) ∈ shortEscapes) : x ≠ 'u' := by
  rintro rfl
  simp [shortEscapes] at h

end Short

/-! ## Reading strings -/

section Reading

variable {c : Cursor} {t rest : List Char} {us : List UInt16} {u : UInt16} {x : Char} {fuel : Nat}

theorem pairMark_passes {mark : Char} (h : c.At (mark :: t)) : Passes (c.pairMark mark) t :=
  ⟨c.advance, by simp [Cursor.pairMark, h.peek?_cons], h.advance⟩

/-- A pair is not read if something else comes than its mark. -/
theorem pairMark_fails (mark : Char) (h : c.At (x :: t)) (hx : x ≠ mark) :
    ∃ e, c.pairMark mark = .error e := by
  simp [Cursor.pairMark, h.peek?_cons, hx]

/-- What stands for itself is neither a mark nor a control. -/
theorem codes_of_plain (quote : x ≠ '"') (slash : x ≠ '\\') (control : 0x20 ≤ x.toNat) :
    x.toNat ≠ 0x22 ∧ x.toNat ≠ 0x5C ∧ isControl x = false :=
  ⟨fun same => quote (Char.toNat_inj.mp same), fun same => slash (Char.toNat_inj.mp same),
    by simpa [isControl] using control⟩

/-- The escape of a unit gives what the units from there on start with. -/
theorem unicodeEscape_gives {a b d e : Char} (unit : IsUnit u a b d e) (content : Content us t)
    (h : c.At (a :: b :: d :: e :: (t ++ '"' :: rest))) :
    (chars? (u :: us) = none ∧ ∃ e, c.unicodeEscape = .error e) ∨
    ∃ y vs s, Content vs s ∧ s.length ≤ t.length ∧ u :: us = ofChar y ++ vs ∧
      Gives c.unicodeEscape (some y) (s ++ '"' :: rest) := by
  obtain ⟨c₁, read, h₁⟩ := unit.gives h
  unfold Cursor.unicodeEscape
  simp only [read, bind, Except.bind]
  cases trailing : isTrailing u.toNat with
  | true =>
    left
    simp [Utf16.chars?_of_trailing trailing]
  | false =>
    cases leading : isLeading u.toNat with
    | false =>
      right
      refine ⟨Char.ofNat u.toNat, us, t, content, Nat.le_refl _, ?_, ?_⟩
      · rw [Utf16.ofChar_of_single (by simp [trailing]) (by simp [leading])]
        rfl
      · simp only [Bool.false_eq_true, ↓reduceIte]
        exact Gives.ok h₁
    | true =>
      simp only [Bool.false_eq_true, ↓reduceIte]
      -- Only the escape of another unit can end the pair.
      cases content with
      | nil =>
        obtain ⟨e, fails⟩ := pairMark_fails '\\' h₁ (by decide)
        left
        simp [Utf16.chars?_of_unpaired leading, fails]
      | plain quote slash control content =>
        obtain ⟨e, fails⟩ := pairMark_fails '\\' h₁ slash
        left
        simp [Utf16.chars?_of_leading_ofChar leading, fails]
      | short letter content =>
        obtain ⟨c₂, passes, h₂⟩ := pairMark_passes h₁
        obtain ⟨e, fails⟩ := pairMark_fails 'u' h₂ (ne_u_of_short letter)
        left
        simp [Utf16.chars?_of_leading_ofChar leading, passes, fails]
      | @unit w a b d e us t unit content =>
        obtain ⟨c₂, passes, h₂⟩ := pairMark_passes h₁
        obtain ⟨c₃, passes', h₃⟩ := pairMark_passes h₂
        obtain ⟨c₄, read', h₄⟩ := unit.gives h₃
        simp only [passes, passes', read']
        cases second : isTrailing w.toNat with
        | false =>
          left
          simp [Utf16.chars?_of_leading leading second]
        | true =>
          right
          refine ⟨pairChar u.toNat w.toNat, us, t, content, ?_, ?_, ?_⟩
          · simp only [List.length_cons]
            omega
          · rw [Utf16.ofChar_of_pair leading second]
            rfl
          · simp only [↓reduceIte]
            exact Gives.ok h₄

theorem escape_of_short {y : Char} (letter : (x, y) ∈ shortEscapes) (h : c.At (x :: t)) :
    c.escape = .ok (y, c.advance) := by
  have other : x ≠ 'u' := ne_u_of_short letter
  simp [Cursor.escape, h.peek?_cons, shortEscape?_eq_some_iff.mpr letter]

/-- A character that has been read, and the rest of the string. -/
theorem cons_gives {result : Except Error (Char × Cursor)} {s : List Char} {vs : List UInt16}
    (h : Gives result (some x) s)
    (further : ∀ c : Cursor, c.At s → Gives (Cursor.stringFrom fuel none c) (chars? vs) rest) :
    Gives (do
      let (y, c) ← result
      let (ys, c) ← Cursor.stringFrom fuel none c
      .ok (y :: ys, c)) (chars? (ofChar x ++ vs)) rest := by
  obtain ⟨c, rfl, hc⟩ := h
  rw [Utf16.chars?_ofChar_append, Option.map_eq_bind]
  exact (further c hc).bind fun _ _ => Gives.ok

theorem Content.givesFrom (content : Content us t) (h : c.At (t ++ '"' :: rest))
    (enough : t.length < fuel) : Gives (Cursor.stringFrom fuel none c) (chars? us) rest := by
  induction fuel generalizing us t c with
  | zero => omega
  | succ fuel ih =>
    rw [Cursor.stringFrom]
    cases content with
    | nil =>
      rw [h.rest_cons]
      exact Gives.ok h.advance
    | @plain x us t quote slash control content =>
      obtain ⟨noQuote, noSlash, noControl⟩ := codes_of_plain quote slash control
      simp only [h.rest_cons, noQuote, noSlash, noControl, Bool.false_eq_true, ↓reduceIte]
      have here : Gives (.ok (x, c.advance)) (some x) (t ++ '"' :: rest) := Gives.ok h.advance
      refine cons_gives here fun c hc => ?_
      exact ih content hc (by simpa using enough)
    | @short x y us t letter content =>
      simp only [h.rest_cons]
      rw [escape_of_short letter h.advance]
      refine cons_gives (Gives.ok h.advance.advance) fun c hc => ih content hc ?_
      simp only [List.length_cons] at enough
      omega
    | @unit u a b d e us t unit content =>
      have mark : c.advance.escape = c.advance.advance.unicodeEscape := by
        simp [Cursor.escape, h.advance.peek?_cons]
      simp only [h.rest_cons, mark]
      -- A pair is read at once, so what is left of the string is not always `t`.
      rcases unicodeEscape_gives unit content h.advance.advance with ⟨none, e, fails⟩ |
        ⟨y, vs, s, further, shorter, same, gives⟩
      · rw [none, fails]
        exact Gives.error
      · rw [same]
        refine cons_gives gives fun c hc => ih further hc ?_
        simp only [List.length_cons] at enough
        omega

/-- A string is read as the characters of its units, or refused if the units have none. -/
theorem Content.gives (content : Content us t) (h : c.At (t ++ '"' :: rest)) :
    Gives c.string ((chars? us).map String.ofList) rest := by
  rw [Option.map_eq_bind]
  refine (content.givesFrom h ?_).bind fun _ _ => Gives.ok
  rw [h.length, List.length_append]
  omega

/-- A string is passed over, whatever its units. -/
theorem Content.skipsFrom (content : Content us t) (h : c.At (t ++ '"' :: rest))
    (enough : t.length < fuel) : Passes (Cursor.skipStringFrom fuel c) rest := by
  induction fuel generalizing us t c with
  | zero => omega
  | succ fuel ih =>
    rw [Cursor.skipStringFrom]
    cases content with
    | nil =>
      rw [h.rest_cons]
      exact ⟨c.advance, rfl, h.advance⟩
    | @plain x us t quote slash control content =>
      obtain ⟨noQuote, noSlash, noControl⟩ := codes_of_plain quote slash control
      simp only [h.rest_cons, noQuote, noSlash, noControl, Bool.false_eq_true, ↓reduceIte]
      exact ih content h.advance (by simpa using enough)
    | @short x y us t letter content =>
      have passes : c.advance.skipEscape = .ok c.advance.advance := by
        have other : x ≠ 'u' := ne_u_of_short letter
        simp [Cursor.skipEscape, h.advance.peek?_cons, shortEscape?_eq_some_iff.mpr letter]
      simp only [h.rest_cons]
      refine Passes.then ⟨_, passes, h.advance.advance⟩ fun c hc => ih content hc ?_
      simp only [List.length_cons] at enough
      omega
    | @unit u a b d e us t unit content =>
      have passes : Passes c.advance.skipEscape (t ++ '"' :: rest) := by
        obtain ⟨c₁, read, h₁⟩ := unit.gives h.advance.advance
        refine ⟨c₁, ?_, h₁⟩
        simp [Cursor.skipEscape, h.advance.peek?_cons, read, Except.map]
      simp only [h.rest_cons]
      refine passes.then fun c hc => ih content hc ?_
      simp only [List.length_cons] at enough
      omega

theorem Content.skips (content : Content us t) (h : c.At (t ++ '"' :: rest)) :
    Passes c.skipString rest := by
  refine content.skipsFrom h ?_
  rw [h.length, List.length_append]
  omega

end Reading

/-! ## What is read as a string -/

section Rest

variable {c c' : Cursor} {x y : Char} {cs : List Char} {fuel : Nat}

/-- A string with bytes that are not UTF-8 is refused. -/
theorem stringFrom_bad (fuel : Nat) (p : Place) (c : Cursor) :
    ∃ e, Cursor.stringFrom fuel (some p) c = .error e := by
  induction fuel generalizing c with
  | zero => exact ⟨_, rfl⟩
  | succ fuel ih =>
    rw [Cursor.stringFrom]
    split
    · exact ⟨_, rfl⟩
    · exact ih c.advance
    · split
      · exact ⟨_, rfl⟩
      · split
        · cases c.advance.escape with
          | error e => exact ⟨e, rfl⟩
          | ok result =>
            obtain ⟨e, fails⟩ := ih result.2
            exact ⟨e, by simp [bind, Except.bind, fails]⟩
        · split
          · exact ⟨_, rfl⟩
          · obtain ⟨e, fails⟩ := ih c.advance
            exact ⟨e, by simp [bind, Except.bind, fails]⟩

theorem rest_of_pairMark {mark : Char} (ascii : mark ≠ Char.ofNat 0xFFFD)
    (h : c.pairMark mark = .ok c') : c.rest = .char mark :: c'.rest := by
  unfold Cursor.pairMark at h
  split at h
  · cases h
  · next x seen =>
    split at h
    · next same =>
      cases h
      subst same
      exact Cursor.rest_of_peek? seen ascii
    · cases h

/-- A text stands for the character in front of any other content. -/
def StandsFor (t : List Char) (x : Char) : Prop :=
  ∀ us s, Content us s → Content (ofChar x ++ us) (t ++ s)

theorem rest_of_unicodeEscape (h : c.unicodeEscape = .ok (x, c')) :
    ∃ t, StandsFor ('\\' :: 'u' :: t) x ∧ c.rest = t.map .char ++ c'.rest := by
  obtain ⟨⟨n, c₁⟩, first, h⟩ := bind_eq_ok_iff.mp h
  obtain ⟨a, b, d, e, same, unit, there⟩ := Cursor.rest_of_hexUnit first
  simp only at h
  split at h
  · cases h
  · next trailing =>
    rw [← same] at trailing
    split at h
    · next leading =>
      obtain ⟨c₂, slash, h⟩ := bind_eq_ok_iff.mp h
      obtain ⟨c₃, letter, h⟩ := bind_eq_ok_iff.mp h
      obtain ⟨⟨m, c₄⟩, second, h⟩ := bind_eq_ok_iff.mp h
      obtain ⟨a', b', d', e', same', unit', there'⟩ := Cursor.rest_of_hexUnit second
      simp only at h
      split at h
      · next trailing' =>
        simp only [Except.ok.injEq, Prod.mk.injEq] at h
        obtain ⟨rfl, rfl⟩ := h
        rw [← same] at leading
        rw [← same'] at trailing'
        refine ⟨[a, b, d, e, '\\', 'u', a', b', d', e'], fun us s content => ?_, ?_⟩
        · rw [← same, ← same', Utf16.ofChar_of_pair leading trailing']
          exact .unit unit (.unit unit' content)
        · rw [there, rest_of_pairMark (by decide) slash, rest_of_pairMark (by decide) letter,
            there']
          rfl
      · cases h
    · next leading =>
      cases h
      refine ⟨[a, b, d, e], fun us s content => ?_, there⟩
      rw [← same] at leading ⊢
      rw [Utf16.ofChar_of_single trailing leading]
      exact .unit unit content

/-- What is read as an escape stands for its character. -/
theorem rest_of_escape (h : c.escape = .ok (x, c')) :
    ∃ t, StandsFor ('\\' :: t) x ∧ c.rest = t.map .char ++ c'.rest := by
  unfold Cursor.escape at h
  split at h
  · cases h
  · next seen =>
    obtain ⟨t, stands, there⟩ := rest_of_unicodeEscape h
    refine ⟨'u' :: t, stands, ?_⟩
    rw [Cursor.rest_of_peek? seen (by decide), there]
    rfl
  · next y _ seen =>
    split at h
    · next letter =>
      cases h
      rw [shortEscape?_eq_some_iff] at letter
      refine ⟨[y], fun us s content => .short letter content, ?_⟩
      refine Cursor.rest_of_peek? seen ?_
      rintro rfl
      simp [shortEscapes] at letter
    · cases h

theorem rest_of_stringFrom (h : Cursor.stringFrom fuel none c = .ok (cs, c')) :
    ∃ t, Content (ofChars cs) t ∧ c.rest = t.map .char ++ .char '"' :: c'.rest := by
  induction fuel generalizing c cs with
  | zero => cases h
  | succ fuel ih =>
    rw [Cursor.stringFrom] at h
    split at h
    · cases h
    · -- Bytes that are no text are noticed at the end of the string, if not before.
      obtain ⟨e, fails⟩ := stringFrom_bad fuel c.peekPlace c.advance
      rw [show (none <|> some c.peekPlace) = some c.peekPlace from rfl, fails] at h
      cases h
    · next x pieces there =>
      have advance : c.advance.rest = pieces := by simp [Cursor.advance, there]
      split at h
      · next quote =>
        cases h
        have : x = '"' := Char.toNat_inj.mp quote
        subst this
        exact ⟨[], .nil, by rw [there, advance]; rfl⟩
      · next noQuote =>
        split at h
        · next slash =>
          have : x = '\\' := Char.toNat_inj.mp slash
          subst this
          obtain ⟨⟨y, c₁⟩, escape, h⟩ := bind_eq_ok_iff.mp h
          obtain ⟨⟨ys, c₂⟩, further, h⟩ := bind_eq_ok_iff.mp h
          cases h
          obtain ⟨t, stands, ht⟩ := rest_of_escape escape
          obtain ⟨s, content, hs⟩ := ih further
          refine ⟨'\\' :: t ++ s, stands _ _ content, ?_⟩
          rw [there, ← advance, ht, hs]
          simp
        · next noSlash =>
          split at h
          · cases h
          · next noControl =>
            obtain ⟨⟨ys, c₁⟩, further, h⟩ := bind_eq_ok_iff.mp h
            cases h
            obtain ⟨s, content, hs⟩ := ih further
            refine ⟨x :: s, .plain ?_ ?_ ?_ content, ?_⟩
            · rintro rfl
              exact noQuote rfl
            · rintro rfl
              exact noSlash rfl
            · simpa [isControl] using noControl
            · rw [there, ← advance, hs]
              simp

/-- What is read as a string is one. -/
theorem Cursor.rest_of_string {s : String} (h : c.string = .ok (s, c')) :
    ∃ t, Content (ofChars s.toList) t ∧ c.rest = t.map .char ++ .char '"' :: c'.rest := by
  obtain ⟨⟨cs, c₁⟩, read, h⟩ := bind_eq_ok_iff.mp h
  cases h
  rw [String.toList_ofList]
  exact rest_of_stringFrom read

end Rest

end PluginHost.Json
