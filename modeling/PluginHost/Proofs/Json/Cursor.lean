import Mathlib.Tactic.Tauto
import PluginHost.Json.Reader
import PluginHost.Proofs.Json.Grammar
import PluginHost.Proofs.Result

/-!
# Standing before a text

How the steps of a reader move it, in terms of the text before it. Places play no part
here: what a reader does depends on what is left to read.

* `Cursor.At` says which characters are left.
* `Gives` says that a reader comes to a value, or that it fails, and `Passes` that it passes
  over something.

Results:
1. `Gives.bind`: readers one after the other.
2. `Cursor.At.skipSpace`, `Cursor.At.digits`, `Cursor.At.word`: what is passed over.
3. `Cursor.skipSpace_rest`, `Cursor.rest_of_peek?`, `Cursor.rest_of_word`: conversely, what has
   been there if something was passed over.
-/

namespace PluginHost.Json

open Utf8 (Piece)

/-! ## Definitions -/

/-- What is left at the cursor are these characters. -/
def Cursor.At (c : Cursor) (t : List Char) : Prop :=
  c.rest = t.map .char

/-- The text does not start with a character that has the property. -/
def Avoids (p : Char → Bool) (t : List Char) : Prop :=
  ∀ x ∈ t.head?, p x = false

/-- Something is passed over, and the text is left. -/
def Passes (result : Except Error Cursor) (t : List Char) : Prop :=
  ∃ c, result = .ok c ∧ c.At t

/-- The reader comes to the value and leaves the text; if there is no value it fails. -/
def Gives {α : Type} (result : Except Error (α × Cursor)) (value? : Option α) (t : List Char) :
    Prop :=
  match value? with
  | some a => ∃ c, result = .ok (a, c) ∧ c.At t
  | none => ∃ e, result = .error e

/-! ## Readers one after the other -/

section Gives

variable {α β : Type} {result : Except Error (α × Cursor)} {a : α} {a? : Option α}
  {t t' : List Char}

theorem Gives.ok {c : Cursor} (h : c.At t) : Gives (.ok (a, c)) (some a) t :=
  ⟨c, rfl, h⟩

theorem Gives.error {e : Error} : Gives (.error e : Except Error (α × Cursor)) none t :=
  ⟨e, rfl⟩

/-- A reader that goes on with what another one has come to. -/
theorem Gives.bind {f : α × Cursor → Except Error (β × Cursor)} {g : α → Option β}
    (h : Gives result a? t) (hf : ∀ a c, c.At t → Gives (f (a, c)) (g a) t') :
    Gives (result >>= f) (a?.bind g) t' := by
  cases a? with
  | none =>
    obtain ⟨e, rfl⟩ := h
    exact ⟨e, rfl⟩
  | some a =>
    obtain ⟨c, rfl, hc⟩ := h
    exact hf a c hc

/-- A reader that makes something else of what another one has come to. -/
theorem Gives.map {f : α × Cursor → β × Cursor} {g : α → β} (h : Gives result a? t)
    (hf : ∀ a c, f (a, c) = (g a, c)) : Gives (result.map f) (a?.map g) t := by
  cases a? with
  | none =>
    obtain ⟨e, rfl⟩ := h
    exact ⟨e, rfl⟩
  | some a =>
    obtain ⟨c, rfl, hc⟩ := h
    exact ⟨c, congrArg Except.ok (hf a c), hc⟩

/-- A reader that first passes over something. -/
theorem Passes.bind {result : Except Error Cursor} {f : Cursor → Except Error (β × Cursor)}
    {b? : Option β} (h : Passes result t) (hf : ∀ c, c.At t → Gives (f c) b? t') :
    Gives (result >>= f) b? t' := by
  obtain ⟨c, rfl, hc⟩ := h
  exact hf c hc

theorem Passes.then {result : Except Error Cursor} {f : Cursor → Except Error Cursor}
    (h : Passes result t) (hf : ∀ c, c.At t → Passes (f c) t') : Passes (result >>= f) t' := by
  obtain ⟨c, rfl, hc⟩ := h
  exact hf c hc

/-- Something is passed over and stands for a value. -/
theorem Passes.gives {result : Except Error Cursor} {f : Cursor → α × Cursor} (h : Passes result t)
    (hf : ∀ c, f c = (a, c)) : Gives (result.map f) (some a) t := by
  obtain ⟨c, rfl, hc⟩ := h
  exact ⟨c, congrArg Except.ok (hf c), hc⟩

end Gives

/-! ## Texts that start otherwise -/

section Avoids

variable {p q : Char → Bool} {t t' : List Char} {x : Char}

@[simp] theorem avoids_nil : Avoids p [] := by
  simp [Avoids]

@[simp] theorem avoids_cons : Avoids p (x :: t) ↔ p x = false := by
  simp [Avoids]

theorem Avoids.mono (h : Avoids p t) (hpq : ∀ x, q x = true → p x = true) : Avoids q t := by
  intro x hx
  cases hq : q x with
  | false => rfl
  | true => exact absurd (hpq x hq) (by simp [h x hx])

/-- A text that starts otherwise in any case, and what comes after it if it is empty. -/
theorem Avoids.append (h : Avoids p t) (h' : Avoids p t') : Avoids p (t ++ t') := by
  cases t with
  | nil => exact h'
  | cons x t => exact avoids_cons.mpr (avoids_cons.mp h)

theorem isSpace_iff : Cursor.isSpace x = true ↔ x = ' ' ∨ x = '\t' ∨ x = '\n' ∨ x = '\r' := by
  simp only [Cursor.isSpace, Bool.or_eq_true, decide_eq_true_eq]
  tauto

theorem blank_iff : Blank t ↔ ∀ x ∈ t, Cursor.isSpace x = true := by
  simp only [Blank, isSpace_iff]

theorem Blank.append (h : Blank t) (h' : Blank t') : Blank (t ++ t') := by
  intro x hx
  rcases List.mem_append.mp hx with hx | hx
  · exact h x hx
  · exact h' x hx

@[simp] theorem Blank.nil : Blank [] := by
  simp [Blank]

end Avoids

/-! ## Steps over a text -/

namespace Cursor

section At

variable {c : Cursor} {t w xs ds : List Char} {x : Char}

theorem At.rest_cons (h : c.At (x :: t)) : c.rest = .char x :: t.map .char := h

theorem At.peek?_cons (h : c.At (x :: t)) : c.peek? = some x := by
  simp [peek?, h.rest_cons]

theorem At.peek?_nil (h : c.At []) : c.peek? = none := by
  rw [At, List.map_nil] at h
  simp [peek?, h]

theorem At.advance (h : c.At (x :: t)) : c.advance.At t := by
  simp [At, Cursor.advance, h.rest_cons]

theorem At.length (h : c.At t) : c.rest.length = t.length := by
  rw [At] at h
  simp [h]

/-- The next character does not have a property that the text avoids. -/
theorem At.any_peek? {p : Char → Bool} (h : c.At t) (avoids : Avoids p t) :
    c.peek?.any p = false := by
  cases t with
  | nil => simp [h.peek?_nil]
  | cons x t => simpa [h.peek?_cons] using avoids

theorem skipSpaceFrom_rest (blank : Blank w) (avoids : Avoids isSpace t) (p : Place) :
    (skipSpaceFrom ((w ++ t).map .char) p).rest = t.map .char := by
  induction w generalizing p with
  | nil =>
    cases t with
    | nil => rfl
    | cons x t =>
      have hx : isSpace x = false := by simpa using avoids
      simp [skipSpaceFrom, hx]
  | cons x w ih =>
    have hx : isSpace x = true := blank_iff.mp blank x List.mem_cons_self
    simp only [List.cons_append, List.map_cons, skipSpaceFrom, hx, ↓reduceIte]
    exact ih (fun y hy => blank y (List.mem_cons_of_mem x hy)) _

/-- All white space is passed over. -/
theorem At.skipSpace (h : c.At (w ++ t)) (blank : Blank w) (avoids : Avoids isSpace t) :
    c.skipSpace.At t := by
  rw [At] at h
  rw [At, Cursor.skipSpace, h]
  exact skipSpaceFrom_rest blank avoids c.place

theorem digitsFrom_eq (digits : ∀ d ∈ ds, Ascii.isDigit d = true) (avoids : Avoids Ascii.isDigit t)
    (p : Place) : (digitsFrom ((ds ++ t).map .char) p).1 = ds ∧
      (digitsFrom ((ds ++ t).map .char) p).2.At t := by
  induction ds generalizing p with
  | nil =>
    cases t with
    | nil => exact ⟨rfl, rfl⟩
    | cons x t =>
      have hx : ('0' ≤ x && x ≤ '9') = false := by simpa [Ascii.isDigit] using avoids
      simp [digitsFrom, hx, At]
  | cons d ds ih =>
    have hd : ('0' ≤ d && d ≤ '9') = true := digits d List.mem_cons_self
    obtain ⟨same, left⟩ := ih (fun x hx => digits x (List.mem_cons_of_mem d hx))
      (p.after (.char d))
    simp only [List.cons_append, List.map_cons, digitsFrom, hd, ↓reduceIte]
    exact ⟨congrArg (d :: ·) same, left⟩

theorem At.digits (h : c.At (ds ++ t)) (digits : ∀ d ∈ ds, Ascii.isDigit d = true)
    (avoids : Avoids Ascii.isDigit t) : ∃ c', c.digits = (ds, c') ∧ c'.At t := by
  rw [At] at h
  obtain ⟨same, left⟩ := digitsFrom_eq digits avoids c.place
  refine ⟨c.digits.2, ?_, ?_⟩
  · rw [Cursor.digits, h]
    exact Prod.ext same rfl
  · rw [Cursor.digits, h]
    exact left

theorem At.word (h : c.At (xs ++ t)) : Passes (c.word xs) t := by
  induction xs generalizing c with
  | nil => exact ⟨c, rfl, h⟩
  | cons x xs ih =>
    have step : c.word (x :: xs) = c.advance.word xs := by simp [Cursor.word, h.peek?_cons]
    rw [step]
    exact ih h.advance

end At

/-! ## What has been there -/

section Rest

variable {c c' : Cursor} {x : Char} {xs : List Char}

theorem skipSpaceFrom_split (pieces : List Piece) (p : Place) :
    ∃ w, Blank w ∧ pieces = w.map .char ++ (skipSpaceFrom pieces p).rest := by
  induction pieces generalizing p with
  | nil => exact ⟨[], Blank.nil, rfl⟩
  | cons piece pieces ih =>
    cases piece with
    | bad bytes cut => exact ⟨[], Blank.nil, rfl⟩
    | char x =>
      rw [skipSpaceFrom]
      split
      · next space =>
        obtain ⟨w, blank, hw⟩ := ih (p.after (.char x))
        refine ⟨x :: w, ?_, ?_⟩
        · rw [blank_iff] at blank ⊢
          simpa [space] using blank
        · rw [List.map_cons, List.cons_append, ← hw]
      · exact ⟨[], Blank.nil, rfl⟩

theorem skipSpace_rest (c : Cursor) : ∃ w, Blank w ∧ c.rest = w.map .char ++ c.skipSpace.rest :=
  skipSpaceFrom_split c.rest c.place

/-- A character that is seen and does not stand for bad bytes is there. -/
theorem rest_of_peek? (h : c.peek? = some x) (hx : x ≠ Char.ofNat 0xFFFD) :
    c.rest = .char x :: c.advance.rest := by
  unfold peek? at h
  unfold advance
  split at h
  · cases h
  · next y rest there =>
    cases h
    rw [there]
  · cases h
    exact absurd rfl hx

/-- Nothing is left if nothing is seen. -/
theorem rest_of_peek?_none (h : c.peek? = none) : c.rest = [] := by
  unfold peek? at h
  split at h
  · assumption
  · cases h
  · cases h

theorem rest_of_word (ascii : ∀ x ∈ xs, x ≠ Char.ofNat 0xFFFD) (h : c.word xs = .ok c') :
    c.rest = xs.map .char ++ c'.rest := by
  induction xs generalizing c with
  | nil =>
    cases h
    rfl
  | cons x xs ih =>
    unfold word at h
    split at h
    · cases h
    · next y seen =>
      split at h
      · next same =>
        subst same
        rw [rest_of_peek? seen (ascii x List.mem_cons_self),
          ih (fun y hy => ascii y (List.mem_cons_of_mem x hy)) h]
        rfl
      · cases h

theorem digitsFrom_split (pieces : List Piece) (p : Place) :
    (∀ d ∈ (digitsFrom pieces p).1, Ascii.isDigit d = true) ∧
      pieces = (digitsFrom pieces p).1.map .char ++ (digitsFrom pieces p).2.rest := by
  induction pieces generalizing p with
  | nil => exact ⟨by simp [digitsFrom], rfl⟩
  | cons piece pieces ih =>
    cases piece with
    | bad bytes cut => exact ⟨by simp [digitsFrom], rfl⟩
    | char x =>
      rw [digitsFrom]
      split
      · next digit =>
        obtain ⟨all, split⟩ := ih (p.after (.char x))
        refine ⟨fun d hd => ?_, ?_⟩
        · rcases List.mem_cons.mp hd with rfl | hd
          · exact digit
          · exact all d hd
        · exact congrArg (Piece.char x :: ·) split
      · exact ⟨by simp, rfl⟩

theorem digits_rest (c : Cursor) : (∀ d ∈ c.digits.1, Ascii.isDigit d = true) ∧
    c.rest = c.digits.1.map .char ++ c.digits.2.rest :=
  digitsFrom_split c.rest c.place

end Rest

end Cursor

end PluginHost.Json
