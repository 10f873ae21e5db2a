import PluginHost.Proofs.Json.Writing

/-!
# No white space outside strings

The compact form has no white space but in its strings. A text is followed character by
character, and whether it is inside a string is all that has to be known.

* `Tight` says that no white space stands outside the strings of a text.
* `Closed` says the same of a part of a text that begins and ends outside strings.

Results:
1. `Content.outsideFrom`: a string ends with the quote after what stands between its quotes.
2. `Value.tight_compact`: the compact form is tight.
-/

namespace PluginHost.Json

/-! ## Definitions -/

/-- The characters of a text outside its strings, their quotes included except those that
close; `inside` says that the text starts in a string. -/
def outsideFrom : (inside : Bool) → List Char → List Char
  | _, [] => []
  | false, x :: t => x :: outsideFrom (x = '"') t
  | true, '\\' :: _ :: t => outsideFrom true t
  | true, x :: t => outsideFrom (x ≠ '"') t

/-- No white space stands outside the strings of a text. -/
def Tight (t : List Char) : Prop :=
  ∀ x ∈ outsideFrom false t, Cursor.isSpace x = false

/-- A text with whole strings only and no white space outside, whatever follows it. -/
def Closed (t : List Char) : Prop :=
  ∃ marks, (∀ x ∈ marks, Cursor.isSpace x = false) ∧
    ∀ rest, outsideFrom false (t ++ rest) = marks ++ outsideFrom false rest

/-- What stands in a number literal beside digits. -/
def numberMarks : List Char :=
  ['-', '+', '.', 'e', 'E']

/-! ## Texts without white space -/

section Space

variable {t s : List Char} {us : List UInt16} {x : Char}

theorem Closed.tight (h : Closed t) : Tight t := by
  obtain ⟨marks, noSpace, outside⟩ := h
  intro x hx
  have whole := outside []
  rw [List.append_nil] at whole
  rw [whole] at hx
  exact noSpace x (by simpa [outsideFrom] using hx)

theorem Closed.nil : Closed [] :=
  ⟨[], by simp, fun _ => rfl⟩

theorem Closed.append (h : Closed s) (h' : Closed t) : Closed (s ++ t) := by
  obtain ⟨marks, noSpace, outside⟩ := h
  obtain ⟨marks', noSpace', outside'⟩ := h'
  refine ⟨marks ++ marks', List.forall_mem_append.mpr ⟨noSpace, noSpace'⟩, fun rest => ?_⟩
  rw [List.append_assoc, outside, outside', List.append_assoc]

theorem Closed.cons (h : Closed t) (quote : x ≠ '"') (space : Cursor.isSpace x = false) :
    Closed (x :: t) := by
  obtain ⟨marks, noSpace, outside⟩ := h
  refine ⟨x :: marks, List.forall_mem_cons.mpr ⟨space, noSpace⟩, fun rest => ?_⟩
  rw [List.cons_append, outsideFrom, decide_eq_false quote, outside, List.cons_append]

theorem closed_of_forall (h : ∀ x ∈ t, x ≠ '"' ∧ Cursor.isSpace x = false) : Closed t := by
  induction t with
  | nil => exact Closed.nil
  | cons x t ih =>
    obtain ⟨⟨quote, space⟩, further⟩ := List.forall_mem_cons.mp h
    exact (ih further).cons quote space

/-- What has neither quotes nor white space stays as it is. -/
theorem closed_of_all (h : t.all fun x => x ≠ '"' ∧ Cursor.isSpace x = false) : Closed t :=
  closed_of_forall fun x hx => of_decide_eq_true (List.all_eq_true.mp h x hx)

theorem outsideFrom_plain (quote : x ≠ '"') (slash : x ≠ '\\') :
    outsideFrom true (x :: t) = outsideFrom true t := by
  rw [outsideFrom]
  · simp [quote]
  · exact fun _ _ same _ => slash same

/-- What stands between quotes is passed over up to the closing one. -/
theorem Content.outsideFrom (content : Content us t) :
    outsideFrom true (t ++ '"' :: s) = outsideFrom false s := by
  induction content with
  | nil => simp [Json.outsideFrom]
  | plain quote slash _ _ ih => rw [List.cons_append, outsideFrom_plain quote slash, ih]
  | short _ _ ih => simpa [Json.outsideFrom] using ih
  | @unit u a b c d us t unit _ ih =>
    have other {v : Nat} {x : Char} (h : IsHexDigit v x) : x ≠ '"' ∧ x ≠ '\\' := by
      rw [← hexValue?_eq_some_iff] at h
      constructor <;>
      · rintro rfl
        cases h
    obtain ⟨i, j, k, l, hi, hj, hk, hl, -⟩ := unit
    simp only [List.cons_append, Json.outsideFrom]
    rw [outsideFrom_plain (other hi).1 (other hi).2, outsideFrom_plain (other hj).1 (other hj).2,
      outsideFrom_plain (other hk).1 (other hk).2, outsideFrom_plain (other hl).1 (other hl).2, ih]

theorem closed_stringChars (k : String) : Closed (stringChars k) := by
  refine ⟨['"'], by simp; rfl, fun rest => ?_⟩
  rw [stringChars, List.cons_append, List.append_assoc, Json.outsideFrom]
  exact congrArg _ (content_escaped k.toList).outsideFrom

/-- An exponent consists of digits and marks. -/
theorem Exponent.mem_chars (e : Exponent) {c : Char} (h : c ∈ e.chars) :
    Ascii.isDigit c = true ∨ c ∈ numberMarks := by
  rw [Exponent.chars] at h
  rcases List.mem_cons.mp h with rfl | further
  · rcases e.isLetter with letter | letter <;>
    · rw [letter]
      exact .inr (by decide)
  · rcases List.mem_append.mp further with sign | digit
    · rcases e.isSign with none | plus | minus
      · simp [none] at sign
      · rw [plus, List.mem_singleton] at sign
        exact .inr (by rw [sign]; decide)
      · rw [minus, List.mem_singleton] at sign
        exact .inr (by rw [sign]; decide)
    · exact .inl (e.isDigits.2 c digit)

/-- A literal consists of digits and marks. -/
theorem Literal.mem_chars (l : Literal) {c : Char} (h : c ∈ l.chars) :
    Ascii.isDigit c = true ∨ c ∈ numberMarks := by
  simp only [Literal.chars, Literal.unsignedChars, List.mem_append] at h
  rcases h with sign | whole | fraction | exponent
  · unfold Literal.signChars at sign
    split at sign
    · exact .inr (List.mem_cons.mpr (.inl (List.mem_singleton.mp sign)))
    · cases sign
  · exact .inl (l.isWhole.1.2 c whole)
  · unfold Literal.fractionChars at fraction
    cases hf : l.fraction with
    | none => simp [hf] at fraction
    | some ds =>
      rw [hf, Option.elim_some] at fraction
      rcases List.mem_cons.mp fraction with rfl | digit
      · exact .inr (by decide)
      · exact .inl ((l.isFraction ds hf).2 c digit)
  · unfold Literal.exponentChars at exponent
    cases he : l.exponent with
    | none => simp [he] at exponent
    | some e =>
      rw [he, Option.elim_some] at exponent
      exact e.mem_chars exponent

theorem closed_literal (l : Literal) : Closed l.chars := by
  have marks : numberMarks.all fun c => c ≠ '"' ∧ Cursor.isSpace c = false := by decide
  refine closed_of_forall fun c hc => ?_
  rcases l.mem_chars hc with digit | mark
  · exact ⟨Ascii.ne_of_isDigit digit rfl, (digit_start digit).1⟩
  · exact of_decide_eq_true (List.all_eq_true.mp marks c mark)

mutual

/-- The compact form has whole strings and no white space outside them. -/
theorem Value.closed_compact : ∀ v : Value, Closed v.compact
  | .null => closed_of_all (by decide)
  | .bool true => closed_of_all (by decide)
  | .bool false => closed_of_all (by decide)
  | .number n => by
    rw [Value.compact, Value.scalarChars, ← n.chars_literal]
    exact closed_literal n.literal
  | .string s => closed_stringChars s
  | .array [] => closed_of_all (by decide)
  | .array (v :: vs) => by
    rw [Value.compact]
    refine Closed.cons ?_ (by decide) (by decide)
    exact (v.closed_compact.append (closed_compactItems vs)).append (closed_of_all (by decide))
  | .object [] => closed_of_all (by decide)
  | .object ((k, v) :: ms) => by
    rw [Value.compact]
    refine Closed.cons ?_ (by decide) (by decide)
    refine (closed_stringChars k).append (Closed.cons ?_ (by decide) (by decide))
    exact (v.closed_compact.append (closed_compactMembers ms)).append
      (closed_of_all (by decide))

theorem closed_compactItems : ∀ vs : List Value, Closed (compactItems vs)
  | [] => Closed.nil
  | v :: vs =>
    Closed.cons (v.closed_compact.append (closed_compactItems vs)) (by decide) (by decide)

theorem closed_compactMembers : ∀ ms : List (String × Value), Closed (compactMembers ms)
  | [] => Closed.nil
  | (k, v) :: ms => by
    rw [compactMembers]
    refine Closed.cons ?_ (by decide) (by decide)
    refine (closed_stringChars k).append (Closed.cons ?_ (by decide) (by decide))
    exact v.closed_compact.append (closed_compactMembers ms)

end

/-- The compact form has no white space outside strings. -/
theorem Value.tight_compact (v : Value) : Tight v.compact :=
  v.closed_compact.tight

end Space

end PluginHost.Json
