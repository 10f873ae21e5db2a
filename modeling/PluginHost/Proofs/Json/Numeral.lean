import PluginHost.Proofs.Json.Cursor
import PluginHost.Proofs.Text.Digits

/-!
# Number literals are read to their end

A literal ends where neither a digit nor a point nor an exponent goes on, and what number
it stands for is decided by the literal alone.

* `Literal.number?` is the number of a literal, unless it is too large.

Results:
1. `Literal.gives`: a literal is read as its number, or refused if it has none.
2. `Literal.skips`: a literal is passed over, whatever its size.
3. `Cursor.rest_of_number`: what is read as a number is a literal.
4. `Literal.number?_of_integral`: an integer of 64 bits is kept exactly.
-/

namespace PluginHost.Json

/-! ## Definitions -/

/-- The character goes on with a number literal. -/
def isNumeric (x : Char) : Bool :=
  Ascii.isDigit x || x = '.' || x = 'e' || x = 'E'

/-- The exponent goes down. -/
def Exponent.down (e : Exponent) : Bool :=
  e.sign = ['-']

/-- A scaled significand with the exponent, unless that is far too large. -/
def Exponent.scale? (e : Exponent) (s : Scaled) : Option Scaled :=
  match exponentDigits 0 default e.digits with
  | (n, none) => some { s with exponent := s.exponent + if e.down then -(n : Int) else n }
  | (_, some _) => if s.significand ≠ 0 ∧ !e.down then none else some ⟨0, 0⟩

/-- The real number of a scaled significand, unless it is too large. -/
def Scaled.real? (negative : Bool) (s : Scaled) : Option Number :=
  s.toFloat?.map fun f => .real (if negative then -f else f).toBits

/-- The real number of a scaled significand with an exponent, if there is one. -/
def Scaled.raised? (negative : Bool) (s : Scaled) : Option Exponent → Option Number
  | some e => (e.scale? s).bind (real? negative)
  | none => s.real? negative

namespace Literal

/-- The digits of a literal that are kept. -/
def scaled (l : Literal) : Scaled :=
  (Scaled.ofDigits l.whole).fraction (l.fraction.getD [])

/-- The number of a literal, unless it is too large. -/
def number? (l : Literal) : Option Number :=
  match l.fraction, l.exponent with
  | none, none => (Cursor.whole? l.negative l.scaled).or (l.scaled.real? l.negative)
  | _, e? => l.scaled.raised? l.negative e?

end Literal

/-! ## Reading literals -/

section Reading

variable {c : Cursor} {t : List Char} {s : Scaled} {negative : Bool}

theorem integerPart_digit {d : Char} (digit : Ascii.isDigit d = true) : IntegerPart [d] :=
  ⟨⟨List.cons_ne_nil d [], List.forall_mem_singleton.mpr digit⟩,
    fun first => congrArg (fun c => [c]) (Option.some.inj first)⟩

theorem digits_of_none : ∀ ds ∈ (none : Option (List Char)), Digits ds := by
  simp

theorem isDigit_of_head {ds : List Char} (h : Digits ds) :
    ∃ d rest, ds = d :: rest ∧ Ascii.isDigit d = true := by
  cases ds with
  | nil => exact absurd rfl h.1
  | cons d rest => exact ⟨d, rest, rfl, h.2 d List.mem_cons_self⟩

/-- The first of digits is seen. -/
theorem Cursor.At.peek?_digits {ds : List Char} (h : c.At (ds ++ t)) (digits : Digits ds) :
    ∃ d, ds.head? = some d ∧ Ascii.isDigit d = true ∧ c.peek? = some d := by
  obtain ⟨d, rest, rfl, digit⟩ := isDigit_of_head digits
  exact ⟨d, rfl, digit, h.peek?_cons⟩

theorem Cursor.At.atDigit {ds : List Char} (h : c.At (ds ++ t)) (digits : Digits ds) :
    c.atDigit = true := by
  obtain ⟨d, -, digit, seen⟩ := h.peek?_digits digits
  simp [Cursor.atDigit, seen, digit]

/-- A literal starts with its sign, or with a digit if it has none. -/
theorem Literal.sign_at (l : Literal) (h : c.At (l.chars ++ t)) :
    l.negative = true ∧ c.peek? = some '-' ∧ c.advance.At (l.unsignedChars ++ t) ∨
    l.negative = false ∧ (∃ x, Ascii.isDigit x = true ∧ c.peek? = some x) ∧
      c.At (l.unsignedChars ++ t) := by
  rw [Literal.chars, List.append_assoc] at h
  unfold Literal.signChars at h
  cases negative : l.negative with
  | true =>
    rw [negative, if_pos rfl] at h
    exact .inl ⟨rfl, h.peek?_cons, h.advance⟩
  | false =>
    rw [negative, if_neg (by simp), List.nil_append] at h
    have whole := h
    rw [Literal.unsignedChars, List.append_assoc, List.append_assoc] at whole
    obtain ⟨x, -, digit, seen⟩ := whole.peek?_digits l.isWhole.1
    exact .inr ⟨rfl, ⟨x, digit, seen⟩, h⟩

theorem Avoids.digit (h : Avoids isNumeric t) : Avoids Ascii.isDigit t :=
  h.mono fun x hx => by simp [isNumeric, hx]

theorem real_gives (h : c.At t) : Gives (c.real negative s) (s.real? negative) t := by
  unfold Cursor.real Scaled.real?
  cases s.toFloat? with
  | none => exact Gives.error
  | some f => exact Gives.ok h

/-- What an exponent comes to does not depend on where it stands. -/
theorem exponentDigits_congr (n : Nat) (c c' : Cursor) (ds : List Char) :
    (exponentDigits n c ds).1 = (exponentDigits n c' ds).1 ∧
      (exponentDigits n c ds).2.isSome = (exponentDigits n c' ds).2.isSome := by
  induction ds generalizing n c c' with
  | nil => exact ⟨rfl, rfl⟩
  | cons d ds ih =>
    simp only [exponentDigits]
    split
    · exact ih _ c.advance c'.advance
    · exact ⟨rfl, rfl⟩

theorem exponentSign_at (e : Exponent) (h : c.At (e.sign ++ (e.digits ++ t))) :
    ∃ c', c.exponentSign = (e.down, c') ∧ c'.At (e.digits ++ t) := by
  unfold Cursor.exponentSign Exponent.down
  rcases e.isSign with hs | hs | hs
  · rw [hs, List.nil_append] at h
    obtain ⟨d, rest, hd, digit⟩ := isDigit_of_head e.isDigits
    refine ⟨c, ?_, h⟩
    rw [hd, List.cons_append] at h
    rw [h.peek?_cons, hs]
    split
    · next plus =>
      cases plus
      cases digit
    · next minus =>
      cases minus
      cases digit
    · rfl
  · rw [hs, List.cons_append, List.nil_append] at h
    exact ⟨c.advance, by rw [h.peek?_cons, hs]; rfl, h.advance⟩
  · rw [hs, List.cons_append, List.nil_append] at h
    exact ⟨c.advance, by rw [h.peek?_cons, hs]; rfl, h.advance⟩

theorem exponent_gives (e : Exponent) (h : c.At (e.sign ++ (e.digits ++ t)))
    (ends : Avoids isNumeric t) :
    Gives (c.exponent negative s) ((e.scale? s).bind (Scaled.real? negative)) t := by
  obtain ⟨c₁, sign, h₁⟩ := exponentSign_at e h
  obtain ⟨c₂, digits, h₂⟩ := h₁.digits e.isDigits.2 ends.digit
  obtain ⟨d, -, digit, seen⟩ := h₁.peek?_digits e.isDigits
  obtain ⟨value, stops⟩ := exponentDigits_congr 0 c₁ default e.digits
  unfold Cursor.exponent Exponent.scale?
  simp only [sign, seen, digit, digits, Bool.not_true, Bool.false_eq_true, ↓reduceIte]
  rcases hv : exponentDigits 0 c₁ e.digits with ⟨n, stop⟩
  rcases hv' : exponentDigits 0 default e.digits with ⟨n', stop'⟩
  rw [hv, hv'] at value stops
  cases value
  cases stop with
  | none =>
    cases stop' with
    | none => exact real_gives h₂
    | some _ => cases stops
  | some stop =>
    cases stop' with
    | none => cases stops
    | some _ =>
      by_cases large : s.significand ≠ 0 ∧ (!e.down) = true
      · simp only [if_pos large]
        exact Gives.error
      · simp only [if_neg large]
        exact real_gives h₂

/-- Nothing goes on with the literal. -/
theorem peek?_of_ends (h : c.At t) (ends : Avoids isNumeric t) :
    c.peek? ≠ some '.' ∧ c.peek? ≠ some 'e' ∧ c.peek? ≠ some 'E' := by
  cases t with
  | nil => simp [h.peek?_nil]
  | cons x t =>
    have hx : isNumeric x = false := avoids_cons.mp ends
    rw [h.peek?_cons]
    refine ⟨?_, ?_, ?_⟩ <;>
    · rintro ⟨⟩
      cases hx

/-- The exponent of a literal after a letter, or the literal without one. -/
theorem exponent?_gives (e? : Option Exponent) (h : c.At (e?.elim [] Exponent.chars ++ t))
    (ends : Avoids isNumeric t) :
    Gives (c.exponent? negative s) (s.raised? negative e?) t := by
  unfold Cursor.exponent?
  cases e? with
  | none =>
    obtain ⟨-, small, capital⟩ := peek?_of_ends h ends
    split
    · next seen => exact absurd seen small
    · next seen => exact absurd seen capital
    · exact real_gives h
  | some e =>
    simp only [Option.elim_some, Exponent.chars, List.cons_append, List.append_assoc] at h
    have seen := h.peek?_cons
    rcases e.isLetter with letter | letter <;>
    · rw [letter] at seen
      rw [seen]
      exact exponent_gives e h.advance ends

theorem avoids_digit_exponent (e? : Option Exponent) (ends : Avoids isNumeric t) :
    Avoids Ascii.isDigit (e?.elim [] Exponent.chars ++ t) := by
  cases e? with
  | none => exact ends.digit
  | some e =>
    rcases e.isLetter with letter | letter <;>
      simp [Exponent.chars, letter, Ascii.isDigit]

theorem fraction_gives {ds : List Char} (digits : Digits ds) (e? : Option Exponent)
    (h : c.At (ds ++ (e?.elim [] Exponent.chars ++ t))) (ends : Avoids isNumeric t) :
    Gives (c.fraction negative s) ((s.fraction ds).raised? negative e?) t := by
  obtain ⟨c', read, h'⟩ := h.digits digits.2 (avoids_digit_exponent e? ends)
  obtain ⟨d, rest, rfl, -⟩ := isDigit_of_head digits
  unfold Cursor.fraction
  rw [read]
  exact exponent?_gives e? h' ends

theorem afterInteger_gives (l : Literal)
    (h : c.At (l.fractionChars ++ (l.exponentChars ++ t))) (ends : Avoids isNumeric t)
    (whole : s = Scaled.ofDigits l.whole) : Gives (c.afterInteger l.negative s) l.number? t := by
  unfold Cursor.afterInteger Literal.number? Literal.scaled
  rw [← whole]
  unfold Literal.fractionChars Literal.exponentChars at h
  cases hf : l.fraction with
  | some ds =>
    rw [hf, Option.elim_some, List.cons_append] at h
    rw [h.peek?_cons]
    exact fraction_gives (l.isFraction ds hf) l.exponent h.advance ends
  | none =>
    rw [hf, Option.elim_none, List.nil_append] at h
    cases he : l.exponent with
    | some e =>
      rw [he, Option.elim_some, Exponent.chars, List.cons_append, List.append_assoc] at h
      have seen := h.peek?_cons
      rcases e.isLetter with letter | letter <;>
      · rw [letter] at seen
        rw [seen]
        exact exponent_gives e h.advance ends
    | none =>
      rw [he, Option.elim_none, List.nil_append] at h
      obtain ⟨point, small, capital⟩ := peek?_of_ends h ends
      split
      · next seen => exact absurd seen point
      · next seen => exact absurd seen small
      · next seen => exact absurd seen capital
      · cases hw : Cursor.whole? l.negative s with
        | none => simpa [hw, Scaled.fraction] using real_gives h
        | some n => simpa [hw, Scaled.fraction] using Gives.ok h

theorem avoids_digit_after (l : Literal) (ends : Avoids isNumeric t) :
    Avoids Ascii.isDigit (l.fractionChars ++ (l.exponentChars ++ t)) := by
  unfold Literal.fractionChars
  cases l.fraction with
  | some ds => simp [Ascii.isDigit]
  | none => exact avoids_digit_exponent l.exponent ends

/-- The integer part is a zero by itself, or digits that start otherwise. -/
theorem Literal.whole_at (l : Literal) (h : c.At (l.unsignedChars ++ t))
    (ends : Avoids isNumeric t) :
    (l.whole = ['0'] ∧ c.peek? = some '0' ∧ c.advance.atDigit = false ∧
      c.advance.At (l.fractionChars ++ (l.exponentChars ++ t))) ∨
    ∃ d, d ≠ '0' ∧ Ascii.isDigit d = true ∧ c.peek? = some d ∧
      ∃ c', c.digits = (l.whole, c') ∧ c'.At (l.fractionChars ++ (l.exponentChars ++ t)) := by
  obtain ⟨digits, zero⟩ := l.isWhole
  rw [Literal.unsignedChars, List.append_assoc, List.append_assoc] at h
  obtain ⟨d, first, digit, seen⟩ := h.peek?_digits digits
  by_cases same : d = '0'
  · subst same
    have alone : l.whole = ['0'] := zero first
    rw [alone, List.cons_append, List.nil_append] at h
    exact .inl ⟨alone, seen, h.advance.any_peek? (avoids_digit_after l ends), h.advance⟩
  · exact .inr ⟨d, same, digit, seen, h.digits digits.2 (avoids_digit_after l ends)⟩

/-- A literal is read as its number, or refused if it is too large. -/
theorem Literal.gives (l : Literal) (h : c.At (l.unsignedChars ++ t)) (ends : Avoids isNumeric t) :
    Gives (c.number l.negative) l.number? t := by
  unfold Cursor.number
  rcases l.whole_at h ends with ⟨alone, seen, next, h⟩ | ⟨d, other, digit, seen, c', read, h⟩
  · simp only [seen, next, Bool.false_eq_true, ↓reduceIte]
    exact afterInteger_gives l h ends (by rw [alone]; rfl)
  · rw [seen]
    split
    · next none => cases none
    · next zero => exact absurd (Option.some.inj zero) other
    · next _ same =>
      cases same
      simp only [digit, Bool.not_true, Bool.false_eq_true, ↓reduceIte, read]
      exact afterInteger_gives l h ends rfl

end Reading

/-! ## Passing over literals -/

section Skipping

variable {c : Cursor} {t : List Char}

theorem skipExponent_passes (e : Exponent) (h : c.At (e.sign ++ (e.digits ++ t)))
    (ends : Avoids isNumeric t) : Passes c.skipExponent t := by
  obtain ⟨c₁, sign, h₁⟩ := exponentSign_at e h
  obtain ⟨c₂, digits, h₂⟩ := h₁.digits e.isDigits.2 ends.digit
  unfold Cursor.skipExponent
  simp only [sign, h₁.atDigit e.isDigits, ↓reduceIte, digits]
  exact ⟨c₂, rfl, h₂⟩

theorem skipExponent?_passes (e? : Option Exponent) (h : c.At (e?.elim [] Exponent.chars ++ t))
    (ends : Avoids isNumeric t) : Passes c.skipExponent? t := by
  unfold Cursor.skipExponent?
  cases e? with
  | none =>
    obtain ⟨-, small, capital⟩ := peek?_of_ends h ends
    split
    · next seen => exact absurd seen small
    · next seen => exact absurd seen capital
    · exact ⟨c, rfl, h⟩
  | some e =>
    simp only [Option.elim_some, Exponent.chars, List.cons_append, List.append_assoc] at h
    have seen := h.peek?_cons
    rcases e.isLetter with letter | letter <;>
    · rw [letter] at seen
      rw [seen]
      exact skipExponent_passes e h.advance ends

theorem skipAfterInteger_passes (l : Literal)
    (h : c.At (l.fractionChars ++ (l.exponentChars ++ t))) (ends : Avoids isNumeric t) :
    Passes c.skipAfterInteger t := by
  unfold Cursor.skipAfterInteger
  unfold Literal.fractionChars at h
  cases hf : l.fraction with
  | some ds =>
    rw [hf, Option.elim_some, List.cons_append] at h
    obtain ⟨c', read, h'⟩ :=
      h.advance.digits (l.isFraction ds hf).2 (avoids_digit_exponent l.exponent ends)
    rw [h.peek?_cons]
    simp only [h.advance.atDigit (l.isFraction ds hf), ↓reduceIte, read]
    exact skipExponent?_passes l.exponent h' ends
  | none =>
    rw [hf, Option.elim_none, List.nil_append] at h
    split
    · next seen =>
      unfold Literal.exponentChars at h
      cases he : l.exponent with
      | none =>
        rw [he] at h
        exact absurd seen (peek?_of_ends h ends).1
      | some e =>
        rw [he, Option.elim_some, Exponent.chars, List.cons_append] at h
        rw [h.peek?_cons] at seen
        rcases e.isLetter with letter | letter <;> simp [letter] at seen
    · exact skipExponent?_passes l.exponent h ends

/-- A literal is passed over, whatever its size. -/
theorem Literal.skips (l : Literal) (h : c.At (l.unsignedChars ++ t)) (ends : Avoids isNumeric t) :
    Passes c.skipNumber t := by
  unfold Cursor.skipNumber
  rcases l.whole_at h ends with ⟨-, seen, next, h⟩ | ⟨d, other, digit, seen, c', read, h⟩
  · simp only [seen, next, Bool.false_eq_true, ↓reduceIte]
    exact skipAfterInteger_passes l h ends
  · have here : c.atDigit = true := by simp [Cursor.atDigit, seen, digit]
    split
    · next zero =>
      rw [seen] at zero
      exact absurd (Option.some.inj zero) other
    · simp only [here, ↓reduceIte, read]
      exact skipAfterInteger_passes l h ends

end Skipping

/-! ## What is read as a number -/

section Rest

variable {c c' : Cursor} {n : Number} {s : Scaled} {negative : Bool} {d : Char}

theorem digits_of_peek? (seen : c.peek? = some d) (digit : Ascii.isDigit d = true) :
    Digits c.digits.1 ∧ c.digits.1.head? = some d := by
  have there := Cursor.rest_of_peek? seen (Ascii.ne_of_isDigit digit rfl)
  have head : c.digits.1.head? = some d := by
    have within : ('0' ≤ d && d ≤ '9') = true := digit
    simp [Cursor.digits, there, Cursor.digitsFrom, within]
  refine ⟨⟨?_, c.digits_rest.1⟩, head⟩
  intro none
  simp [none] at head

theorem rest_of_real (h : c.real negative s = .ok (n, c')) : c' = c := by
  unfold Cursor.real at h
  split at h
  · cases h
  · cases h
    rfl

theorem rest_of_exponentSign (c : Cursor) : ∃ sign : List Char,
    (sign = [] ∨ sign = ['+'] ∨ sign = ['-']) ∧
      c.rest = sign.map .char ++ c.exponentSign.2.rest := by
  unfold Cursor.exponentSign
  split
  · next seen => exact ⟨['+'], by simp, Cursor.rest_of_peek? seen (by decide)⟩
  · next seen => exact ⟨['-'], by simp, Cursor.rest_of_peek? seen (by decide)⟩
  · exact ⟨[], by simp, rfl⟩

theorem rest_of_exponent {letter : Char} (isLetter : letter = 'e' ∨ letter = 'E')
    (h : c.exponent negative s = .ok (n, c')) :
    ∃ e : Exponent, e.letter = letter ∧ c.rest = (e.sign ++ e.digits).map .char ++ c'.rest := by
  obtain ⟨sign, isSign, hsign⟩ := rest_of_exponentSign c
  rcases hc : c.exponentSign with ⟨down, c₁⟩
  rw [hc] at hsign
  simp only [Cursor.exponent, hc] at h
  cases seen : c₁.peek? with
  | none => simp [seen] at h
  | some d =>
    cases digit : Ascii.isDigit d with
    | false => simp [seen, digit] at h
    | true =>
      obtain ⟨isDigits, -⟩ := digits_of_peek? seen digit
      simp only [seen, digit, Bool.not_true, Bool.false_eq_true, ↓reduceIte] at h
      have last : c' = c₁.digits.2 := by
        split at h
        · exact rest_of_real h
        · split at h
          · cases h
          · exact rest_of_real h
      refine ⟨⟨letter, sign, _, isLetter, isSign, isDigits⟩, rfl, ?_⟩
      rw [hsign, c₁.digits_rest.2, last, List.map_append, List.append_assoc]

theorem rest_of_exponent? (h : c.exponent? negative s = .ok (n, c')) :
    ∃ e? : Option Exponent, c.rest = (e?.elim [] Exponent.chars).map .char ++ c'.rest := by
  unfold Cursor.exponent? at h
  split at h
  · next seen =>
    obtain ⟨e, letter, he⟩ := rest_of_exponent (.inl rfl) h
    refine ⟨some e, ?_⟩
    rw [Cursor.rest_of_peek? seen (by decide), he, Option.elim_some, Exponent.chars, letter]
    rfl
  · next seen =>
    obtain ⟨e, letter, he⟩ := rest_of_exponent (.inr rfl) h
    refine ⟨some e, ?_⟩
    rw [Cursor.rest_of_peek? seen (by decide), he, Option.elim_some, Exponent.chars, letter]
    rfl
  · exact ⟨none, by rw [rest_of_real h]; rfl⟩

theorem rest_of_fraction (h : c.fraction negative s = .ok (n, c')) :
    ∃ (ds : List Char) (e? : Option Exponent), Digits ds ∧
      c.rest = ds.map .char ++ ((e?.elim [] Exponent.chars).map .char ++ c'.rest) := by
  obtain ⟨all, there⟩ := c.digits_rest
  unfold Cursor.fraction at h
  split at h
  · split at h <;> cases h
  · next ds after nonempty read =>
    obtain ⟨e?, he⟩ := rest_of_exponent? h
    refine ⟨c.digits.1, e?, ⟨?_, all⟩, ?_⟩
    · intro none
      rw [read] at none
      exact nonempty none
    · rw [there, read, he]

/-- What follows an integer part is a fraction and an exponent, each of which may be absent. -/
theorem rest_of_afterInteger (h : c.afterInteger negative s = .ok (n, c')) :
    ∃ (f? : Option (List Char)) (e? : Option Exponent), (∀ ds ∈ f?, Digits ds) ∧
      c.rest = (f?.elim [] ('.' :: ·)).map .char ++
        ((e?.elim [] Exponent.chars).map .char ++ c'.rest) := by
  unfold Cursor.afterInteger at h
  split at h
  · next seen =>
    obtain ⟨ds, e?, digits, hds⟩ := rest_of_fraction h
    refine ⟨some ds, e?, by simpa using digits, ?_⟩
    rw [Cursor.rest_of_peek? seen (by decide), hds]
    rfl
  · next seen =>
    obtain ⟨e, letter, he⟩ := rest_of_exponent (.inl rfl) h
    refine ⟨none, some e, by simp, ?_⟩
    rw [Cursor.rest_of_peek? seen (by decide), he, Option.elim_some, Exponent.chars, letter]
    rfl
  · next seen =>
    obtain ⟨e, letter, he⟩ := rest_of_exponent (.inr rfl) h
    refine ⟨none, some e, by simp, ?_⟩
    rw [Cursor.rest_of_peek? seen (by decide), he, Option.elim_some, Exponent.chars, letter]
    rfl
  · refine ⟨none, none, by simp, ?_⟩
    split at h
    · cases h
      rfl
    · rw [rest_of_real h]
      rfl

/-- What is read as a number is a literal. -/
theorem Cursor.rest_of_number (h : c.number negative = .ok (n, c')) :
    ∃ l : Literal, l.negative = negative ∧ c.rest = l.unsignedChars.map .char ++ c'.rest := by
  unfold Cursor.number at h
  split at h
  · cases h
  · next seen =>
    split at h
    · cases h
    · obtain ⟨f?, e?, digits, hrest⟩ := rest_of_afterInteger h
      refine ⟨⟨negative, ['0'], f?, e?, integerPart_digit rfl, digits⟩, rfl, ?_⟩
      rw [Cursor.rest_of_peek? seen (by decide), hrest]
      simp [Literal.unsignedChars, Literal.fractionChars, Literal.exponentChars]
  · next d seen other =>
    split at h
    · cases h
    · next digit =>
      obtain ⟨isDigits, head⟩ := digits_of_peek? other (by simpa using digit)
      obtain ⟨f?, e?, digits, hrest⟩ := rest_of_afterInteger h
      have whole : IntegerPart c.digits.1 := by
        refine ⟨isDigits, fun zero => ?_⟩
        rw [head] at zero
        exact absurd (Option.some.inj zero) seen
      refine ⟨⟨negative, c.digits.1, f?, e?, whole, digits⟩, rfl, ?_⟩
      rw [c.digits_rest.2]
      change c.digits.2.rest = _ at hrest
      rw [hrest]
      simp [Literal.unsignedChars, Literal.fractionChars, Literal.exponentChars]

end Rest

/-! ## Integers of 64 bits -/

section Integral

variable {ds : List Char} {l : Literal}

theorem le_decimalFrom (n : Nat) (ds : List Char) : n ≤ Ascii.decimalFrom n ds := by
  induction ds generalizing n with
  | nil => exact Nat.le_refl n
  | cons d ds ih =>
    have further := ih (n * 10 + Ascii.digitValue d)
    simp only [Ascii.decimalFrom, List.foldl_cons] at further ⊢
    omega

theorem Scaled.foldl_of_lt (n : Nat) (ds : List Char) (h : Ascii.decimalFrom n ds < 2 ^ 64) :
    ds.foldl (fun (s : Scaled) d => s.pushInteger (Ascii.digitValue d)) ⟨n, 0⟩ =
      ⟨Ascii.decimalFrom n ds, 0⟩ := by
  induction ds generalizing n with
  | nil => rfl
  | cons d ds ih =>
    have further := le_decimalFrom (n * 10 + Ascii.digitValue d) ds
    have fits : n * 10 + Ascii.digitValue d ≤ Scaled.limit := by
      simp only [Ascii.decimalFrom, List.foldl_cons] at h further
      have limit : Scaled.limit = 2 ^ 64 - 1 := rfl
      omega
    have step : Scaled.pushInteger ⟨n, 0⟩ (Ascii.digitValue d) =
        ⟨n * 10 + Ascii.digitValue d, 0⟩ := by
      simp [Scaled.pushInteger, fits]
    rw [List.foldl_cons, step]
    exact ih _ h

/-- Digits are gathered exactly as long as they fit. -/
theorem Scaled.ofDigits_of_lt (h : Ascii.decimal ds < 2 ^ 64) :
    Scaled.ofDigits ds = ⟨Ascii.decimal ds, 0⟩ :=
  Scaled.foldl_of_lt 0 ds h

/-- An integer of 64 bits is kept exactly. -/
theorem Literal.number?_of_integral (h : l.Integral) :
    l.number? = some (if l.negative then .negative (Ascii.decimal l.whole)
      else .whole (Ascii.decimal l.whole)) := by
  obtain ⟨fraction, exponent, range⟩ := h
  have fits : Ascii.decimal l.whole < 2 ^ 64 := by
    split at range <;> omega
  have scaled : l.scaled = ⟨Ascii.decimal l.whole, 0⟩ := by
    simp [Literal.scaled, fraction, Scaled.ofDigits_of_lt fits, Scaled.fraction]
  cases negative : l.negative with
  | false =>
    simp [Literal.number?, fraction, exponent, scaled, negative, Cursor.whole?]
  | true =>
    rw [negative, if_pos rfl] at range
    have nonzero : Ascii.decimal l.whole ≠ 0 := by omega
    have small : ¬ Nat.pow 2 63 < Ascii.decimal l.whole := by
      simpa using range.2
    simp only [Literal.number?, fraction, exponent, scaled, negative, Cursor.whole?]
    simp [nonzero, small]

end Integral

end PluginHost.Json
