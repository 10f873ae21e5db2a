import PluginHost.Proofs.Json.Numeral
import PluginHost.Proofs.Json.StringContent
import PluginHost.Proofs.Text.Utf8

/-!
# Reading a text of a document

What a text is read as is decided by the document alone. White space, the escapes in its
strings and what comes after it make no difference, to a refusal neither.

* `Doc.value?` is what a document stands for: nothing if it nests too deep, if a string has
  a unit of a pair by itself, or if a number is too large.

Results:
1. `Doc.gives`: a text is read as what its document stands for, and no further.
2. `Doc.IsText.ofBytes`: the same for the bytes of a whole text.
-/

namespace PluginHost.Json

open Utf16 (chars?)

/-! ## Definitions -/

/-- The string of units, if they pair up. -/
def string? (us : List UInt16) : Option String :=
  (chars? us).map String.ofList

mutual

/-- What a document stands for, if no more containers than `depth` are open at once. -/
def Doc.value? : (depth : Nat) → Doc → Option Value
  | _, .null => some .null
  | _, .bool b => some (.bool b)
  | _, .number l => l.number?.map .number
  | _, .string us => (string? us).map .string
  | 0, .array _ => none
  | depth + 1, .array items => (values? depth items).map .array
  | 0, .object _ => none
  | depth + 1, .object members => (namedValues? depth members).map .object

def values? : (depth : Nat) → List Doc → Option (List Value)
  | _, [] => some []
  | depth, d :: ds => (d.value? depth).bind fun v => (values? depth ds).map (v :: ·)

def namedValues? : (depth : Nat) → List (List UInt16 × Doc) → Option (List (String × Value))
  | _, [] => some []
  | depth, (k, d) :: ms => (string? k).bind fun k =>
    (d.value? depth).bind fun v => (namedValues? depth ms).map ((k, v) :: ·)

end

/-- The character is one that a text of the document starts with. -/
def Doc.Opens : Doc → Char → Prop
  | .null, x => x = 'n'
  | .bool _, x => x = 't' ∨ x = 'f'
  | .number _, x => x = '-' ∨ Ascii.isDigit x = true
  | .string _, x => x = '"'
  | .array _, x => x = '['
  | .object _, x => x = '{'

/-! ## How texts start -/

section Start

variable {d : Doc} {k : List UInt16} {t s rest : List Char} {x : Char}

theorem digit_start (digit : Ascii.isDigit x = true) : Cursor.isSpace x = false ∧ x ≠ ']' := by
  refine ⟨?_, Ascii.ne_of_isDigit digit rfl⟩
  cases space : Cursor.isSpace x with
  | false => rfl
  | true =>
    rcases isSpace_iff.mp space with rfl | rfl | rfl | rfl <;> cases digit

/-- A text starts with a character of its document. -/
theorem Spells.opens (h : Spells d t) : ∃ x s, t = x :: s ∧ d.Opens x := by
  cases h with
  | number l =>
    obtain ⟨x, ds, hx, digit⟩ := isDigit_of_head l.isWhole.1
    unfold Literal.chars Literal.signChars Literal.unsignedChars
    cases l.negative with
    | true => exact ⟨'-', _, rfl, .inl rfl⟩
    | false => exact ⟨x, _, by rw [hx]; rfl, .inr digit⟩
  | yes => exact ⟨_, _, rfl, .inl rfl⟩
  | no => exact ⟨_, _, rfl, .inr rfl⟩
  | _ => exact ⟨_, _, rfl, rfl⟩

/-- A text starts neither with white space nor with a closing bracket. -/
theorem Spells.start (h : Spells d t) :
    ∃ x s, t = x :: s ∧ Cursor.isSpace x = false ∧ x ≠ ']' := by
  obtain ⟨x, s, there, opens⟩ := h.opens
  refine ⟨x, s, there, ?_⟩
  cases d with
  | number l =>
    rcases opens with rfl | digit
    · exact ⟨rfl, by decide⟩
    · exact digit_start digit
  | bool b => rcases opens with rfl | rfl <;> exact ⟨rfl, by decide⟩
  | _ =>
    cases opens
    exact ⟨rfl, by decide⟩

/-- Only null starts as null does. -/
theorem Doc.Opens.null (h : d.Opens 'n') : d = .null := by
  cases d with
  | null => rfl
  | number l => rcases h with h | h <;> cases h
  | bool b => rcases h with h | h <;> cases h
  | _ => cases h

/-- Only strings start with a quote. -/
theorem Doc.Opens.string (h : d.Opens '"') : ∃ us, d = .string us := by
  cases d with
  | string us => exact ⟨us, rfl⟩
  | number l => rcases h with h | h <;> cases h
  | bool b => rcases h with h | h <;> cases h
  | _ => cases h

/-- Only arrays start with a bracket. -/
theorem Doc.Opens.array (h : d.Opens '[') : ∃ items, d = .array items := by
  cases d with
  | array items => exact ⟨items, rfl⟩
  | number l => rcases h with h | h <;> cases h
  | bool b => rcases h with h | h <;> cases h
  | _ => cases h

/-- Only objects start with a brace. -/
theorem Doc.Opens.object (h : d.Opens '{') : ∃ members, d = .object members := by
  cases d with
  | object members => exact ⟨members, rfl⟩
  | number l => rcases h with h | h <;> cases h
  | bool b => rcases h with h | h <;> cases h
  | _ => cases h

theorem Spells.avoids (h : Spells d t) : Avoids Cursor.isSpace (t ++ rest) := by
  obtain ⟨x, s, rfl, space, -⟩ := h.start
  simpa using space

theorem Spells.length_pos (h : Spells d t) : 0 < t.length := by
  obtain ⟨x, s, rfl, -, -⟩ := h.start
  simp

/-- A number literal ends where white space or a mark of a container comes. -/
theorem avoids_isNumeric_of_blank {w : List Char} (blank : Blank w)
    (h : Avoids isNumeric rest) : Avoids isNumeric (w ++ rest) := by
  refine Avoids.append (fun x hx => ?_) h
  rcases blank x (List.mem_of_mem_head? hx) with rfl | rfl | rfl | rfl <;> rfl

theorem MoreItems.avoids {ds : List Doc} (h : MoreItems ds t) : Avoids isNumeric (t ++ rest) := by
  cases h with
  | close blank =>
    rw [List.append_assoc]
    exact avoids_isNumeric_of_blank blank (avoids_cons.mpr rfl)
  | item blank =>
    rw [List.append_assoc]
    exact avoids_isNumeric_of_blank blank (avoids_cons.mpr rfl)

theorem MoreMembers.avoids {ms : List (List UInt16 × Doc)} (h : MoreMembers ms t) :
    Avoids isNumeric (t ++ rest) := by
  cases h with
  | close blank =>
    rw [List.append_assoc]
    exact avoids_isNumeric_of_blank blank (avoids_cons.mpr rfl)
  | member blank =>
    rw [List.append_assoc]
    exact avoids_isNumeric_of_blank blank (avoids_cons.mpr rfl)

end Start

/-! ## Marks of containers -/

section Marks

variable {c : Cursor} {d : Doc} {k : List UInt16} {w w' t rest : List Char} {first : Bool}

theorem nextItem_close (blank : Blank w) (h : c.At (w ++ ']' :: rest)) :
    Gives (c.nextItem first) (some false) (']' :: rest) := by
  have h := h.skipSpace blank (avoids_cons.mpr rfl)
  unfold Cursor.nextItem
  simp only [h.peek?_cons]
  exact Gives.ok h

theorem nextItem_first (blank : Blank w) (spells : Spells d t) (h : c.At (w ++ (t ++ rest))) :
    Gives (c.nextItem true) (some true) (t ++ rest) := by
  have h := h.skipSpace blank spells.avoids
  obtain ⟨x, s, rfl, -, bracket⟩ := spells.start
  have seen := h.peek?_cons
  unfold Cursor.nextItem
  simp only [seen]
  exact Gives.ok h

theorem nextItem_comma (blank : Blank w) (blank' : Blank w') (spells : Spells d t)
    (h : c.At (w ++ ',' :: (w' ++ (t ++ rest)))) :
    Gives (c.nextItem false) (some true) (t ++ rest) := by
  have h := h.skipSpace blank (avoids_cons.mpr rfl)
  have h' := h.advance.skipSpace blank' spells.avoids
  obtain ⟨x, s, rfl, -, bracket⟩ := spells.start
  have seen := h'.peek?_cons
  unfold Cursor.nextItem
  simp only [h.peek?_cons, Bool.false_eq_true, ↓reduceIte, seen]
  exact Gives.ok h'

theorem nextKey_close (blank : Blank w) (h : c.At (w ++ '}' :: rest)) :
    Gives (c.nextKey first) (some false) ('}' :: rest) := by
  have h := h.skipSpace blank (avoids_cons.mpr rfl)
  unfold Cursor.nextKey
  simp only [h.peek?_cons]
  exact Gives.ok h

theorem nextKey_first (blank : Blank w) (h : c.At (w ++ '"' :: rest)) :
    Gives (c.nextKey true) (some true) rest := by
  have h := h.skipSpace blank (avoids_cons.mpr rfl)
  unfold Cursor.nextKey
  simp only [h.peek?_cons]
  exact Gives.ok h.advance

theorem nextKey_comma (blank : Blank w) (blank' : Blank w')
    (h : c.At (w ++ ',' :: (w' ++ '"' :: rest))) :
    Gives (c.nextKey false) (some true) rest := by
  have h := h.skipSpace blank (avoids_cons.mpr rfl)
  have h' := h.advance.skipSpace blank' (avoids_cons.mpr rfl)
  unfold Cursor.nextKey
  simp only [h.peek?_cons, h'.peek?_cons]
  exact Gives.ok h'.advance

theorem colon_passes (blank : Blank w) (h : c.At (w ++ ':' :: rest)) : Passes c.colon rest := by
  have h := h.skipSpace blank (avoids_cons.mpr rfl)
  unfold Cursor.colon
  simp only [h.peek?_cons]
  exact ⟨_, rfl, h.advance⟩

end Marks

/-! ## Values that are no containers -/

section Scalars

variable {c : Cursor} {d : Doc} {t rest : List Char}

/-- The document is neither an array nor an object. -/
def Doc.IsScalar : Doc → Prop
  | .array _ => False
  | .object _ => False
  | _ => True

theorem word_gives {x : Char} {xs : List Char} {v : Value} (h : c.At (x :: (xs ++ rest))) :
    Gives ((c.advance.word xs).map fun c => (v, c)) (some v) rest :=
  (h.advance.word).gives fun _ => rfl

theorem scalar?_of_digit {x : Char} (digit : Ascii.isDigit x = true) (seen : c.peek? = some x) :
    c.scalar? = some ((c.number false).map fun (n, c) => (.number n, c)) := by
  have noN : x ≠ 'n' := Ascii.ne_of_isDigit digit rfl
  have noT : x ≠ 't' := Ascii.ne_of_isDigit digit rfl
  have noF : x ≠ 'f' := Ascii.ne_of_isDigit digit rfl
  have noSign : x ≠ '-' := Ascii.ne_of_isDigit digit rfl
  simp [Cursor.scalar?, seen, noN, noT, noF, noSign, digit]

/-- A text of a value that is no container is read as what it stands for. -/
theorem scalar?_gives (scalar : d.IsScalar) (spells : Spells d t) (ends : Avoids isNumeric rest)
    (h : c.At (t ++ rest)) (depth : Nat) :
    ∃ result, c.scalar? = some result ∧ Gives result (d.value? depth) rest := by
  cases spells with
  | null => exact ⟨_, by simp [Cursor.scalar?, h.peek?_cons], word_gives h⟩
  | yes => exact ⟨_, by simp [Cursor.scalar?, h.peek?_cons], word_gives h⟩
  | no => exact ⟨_, by simp [Cursor.scalar?, h.peek?_cons], word_gives h⟩
  | number l =>
    rcases l.sign_at h with ⟨negative, seen, h⟩ | ⟨negative, ⟨x, digit, seen⟩, h⟩
    · refine ⟨_, by simp [Cursor.scalar?, seen]; rfl, ?_⟩
      rw [← negative]
      exact (l.gives h ends).map fun _ _ => rfl
    · refine ⟨_, scalar?_of_digit digit seen, ?_⟩
      rw [← negative]
      exact (l.gives h ends).map fun _ _ => rfl
  | @string us t content =>
    rw [List.cons_append, List.append_assoc] at h
    refine ⟨_, by simp [Cursor.scalar?, h.peek?_cons, Ascii.isDigit]; rfl, ?_⟩
    exact (content.gives h.advance).map fun _ _ => rfl
  | _ => cases scalar

end Scalars

/-! ## Documents -/

section Containers

variable {c : Cursor} {s s' rest : List Char} {v? : Option Value} {depth fuel : Nat} {first : Bool}

theorem itemsFrom_close (h : Gives (c.nextItem first) (some false) (']' :: rest)) :
    Gives (Cursor.itemsFrom (fuel + 1) depth first c) (some []) rest := by
  obtain ⟨c₁, next, h₁⟩ := h
  rw [Cursor.itemsFrom, next]
  exact Gives.ok h₁.advance

theorem itemsFrom_item {vs? : Option (List Value)} (h : Gives (c.nextItem first) (some true) s)
    (item : ∀ c : Cursor, c.At s → Gives (Cursor.valueFrom fuel depth c) v? s')
    (further : ∀ c : Cursor, c.At s' → Gives (Cursor.itemsFrom fuel depth false c) vs? rest) :
    Gives (Cursor.itemsFrom (fuel + 1) depth first c)
      (v?.bind fun v => vs?.map (v :: ·)) rest := by
  obtain ⟨c₁, next, h₁⟩ := h
  rw [Cursor.itemsFrom, next]
  refine (item c₁ h₁).bind fun v c₂ h₂ => ?_
  rw [Option.map_eq_bind]
  exact (further c₂ h₂).bind fun vs c₃ h₃ => Gives.ok h₃

theorem membersFrom_close (h : Gives (c.nextKey first) (some false) ('}' :: rest)) :
    Gives (Cursor.membersFrom (fuel + 1) depth first c) (some []) rest := by
  obtain ⟨c₁, next, h₁⟩ := h
  rw [Cursor.membersFrom, next]
  exact Gives.ok h₁.advance

theorem membersFrom_member {k : List UInt16} {t w : List Char}
    {ms? : Option (List (String × Value))} (content : Content k t) (blank : Blank w)
    (h : Gives (c.nextKey first) (some true) (t ++ '"' :: (w ++ ':' :: s)))
    (value : ∀ c : Cursor, c.At s → Gives (Cursor.valueFrom fuel depth c) v? s')
    (further : ∀ c : Cursor, c.At s' → Gives (Cursor.membersFrom fuel depth false c) ms? rest) :
    Gives (Cursor.membersFrom (fuel + 1) depth first c)
      ((string? k).bind fun k => v?.bind fun v => ms?.map ((k, v) :: ·)) rest := by
  obtain ⟨c₁, next, h₁⟩ := h
  rw [Cursor.membersFrom, next]
  refine (content.gives h₁).bind fun k c₂ h₂ => ?_
  refine (colon_passes blank h₂).bind fun c₃ h₃ => ?_
  refine (value c₃ h₃).bind fun v c₄ h₄ => ?_
  rw [Option.map_eq_bind]
  exact (further c₄ h₄).bind fun ms c₅ h₅ => Gives.ok h₅

/-- A value that is no container, after white space. -/
theorem scalar_gives {d : Doc} {w t : List Char} {c : Cursor} (scalar : d.IsScalar)
    (blank : Blank w) (spells : Spells d t) (ends : Avoids isNumeric rest)
    (enough : 2 * t.length ≤ fuel) (h : c.At (w ++ (t ++ rest))) :
    Gives (Cursor.valueFrom fuel depth c) (d.value? depth) rest := by
  have pos := spells.length_pos
  obtain ⟨fuel, rfl⟩ : ∃ n, fuel = n + 1 := ⟨fuel - 1, by omega⟩
  have h := h.skipSpace blank spells.avoids
  obtain ⟨result, read, gives⟩ := scalar?_gives scalar spells ends h depth
  rw [Cursor.valueFrom.eq_def]
  simp only [read]
  exact gives

/-- An array, if its items are read from the opening bracket on. -/
theorem array_gives {ds : List Doc} {w : List Char} {c : Cursor} (blank : Blank w)
    (h : c.At (w ++ '[' :: s))
    (items : ∀ (c : Cursor) (depth : Nat), c.At s →
      Gives (Cursor.itemsFrom fuel depth true c) (values? depth ds) rest) :
    Gives (Cursor.valueFrom (fuel + 1) depth c) ((Doc.array ds).value? depth) rest := by
  have h := h.skipSpace blank (avoids_cons.mpr rfl)
  have container : c.skipSpace.scalar? = none := by
    simp [Cursor.scalar?, h.peek?_cons, Ascii.isDigit]
  rw [Cursor.valueFrom.eq_def]
  simp only [container]
  cases depth with
  | zero => exact Gives.error
  | succ depth =>
    simp only [h.peek?_cons, ↓reduceIte, Doc.value?]
    rw [Option.map_eq_bind]
    exact (items _ depth h.advance).bind fun _ _ => Gives.ok

/-- An object, if its members are read from the opening brace on. -/
theorem object_gives {ms : List (List UInt16 × Doc)} {w : List Char} {c : Cursor} (blank : Blank w)
    (h : c.At (w ++ '{' :: s))
    (members : ∀ (c : Cursor) (depth : Nat), c.At s →
      Gives (Cursor.membersFrom fuel depth true c) (namedValues? depth ms) rest) :
    Gives (Cursor.valueFrom (fuel + 1) depth c) ((Doc.object ms).value? depth) rest := by
  have h := h.skipSpace blank (avoids_cons.mpr rfl)
  have container : c.skipSpace.scalar? = none := by
    simp [Cursor.scalar?, h.peek?_cons, Ascii.isDigit]
  rw [Cursor.valueFrom.eq_def]
  simp only [container]
  cases depth with
  | zero => exact Gives.error
  | succ depth =>
    have other : ¬ some '{' = some '[' := by decide
    simp only [h.peek?_cons, other, ↓reduceIte, Doc.value?]
    rw [Option.map_eq_bind]
    exact (members _ depth h.advance).bind fun _ _ => Gives.ok

end Containers

mutual

/-- A text is read as what its document stands for, and no further. -/
theorem Doc.gives : ∀ (d : Doc) {c : Cursor} {w t rest : List Char} {depth fuel : Nat},
    Blank w → Spells d t → Avoids isNumeric rest → 2 * t.length ≤ fuel →
    c.At (w ++ (t ++ rest)) → Gives (Cursor.valueFrom fuel depth c) (d.value? depth) rest
  | .null, _, _, _, _, _, _, blank, spells, ends, enough, h =>
    scalar_gives trivial blank spells ends enough h
  | .bool _, _, _, _, _, _, _, blank, spells, ends, enough, h =>
    scalar_gives trivial blank spells ends enough h
  | .number _, _, _, _, _, _, _, blank, spells, ends, enough, h =>
    scalar_gives trivial blank spells ends enough h
  | .string _, _, _, _, _, _, _, blank, spells, ends, enough, h =>
    scalar_gives trivial blank spells ends enough h
  -- A container spends one step on itself and one on what it opens with, and its text has two
  -- characters at least: two steps a character are never too few.
  | .array [], _, _, _, _, _, fuel, blank, .noItems blank', _, enough, h => by
    rw [List.cons_append, List.append_assoc] at h
    simp only [List.length_cons, List.length_append] at enough
    obtain ⟨fuel, rfl⟩ : ∃ n, fuel = n + 2 := ⟨fuel - 2, by omega⟩
    exact array_gives blank h fun c depth h => itemsFrom_close (nextItem_close blank' h)
  | .array (d :: ds), _, _, _, _, _, fuel, blank, .items blank' spells more, _, enough, h => by
    simp only [List.cons_append, List.append_assoc] at h
    simp only [List.length_cons, List.length_append] at enough
    obtain ⟨fuel, rfl⟩ : ∃ n, fuel = n + 2 := ⟨fuel - 2, by omega⟩
    have pos := spells.length_pos
    refine array_gives blank h fun c depth h => ?_
    rw [values?]
    exact itemsFrom_item (nextItem_first blank' spells h)
      (fun _ h => d.gives Blank.nil spells more.avoids (by omega) h)
      (fun _ h => moreItems_gives ds more (by omega) h)
  | .object [], _, _, _, _, _, fuel, blank, .noMembers blank', _, enough, h => by
    rw [List.cons_append, List.append_assoc] at h
    simp only [List.length_cons, List.length_append] at enough
    obtain ⟨fuel, rfl⟩ : ∃ n, fuel = n + 2 := ⟨fuel - 2, by omega⟩
    exact object_gives blank h fun c depth h => membersFrom_close (nextKey_close blank' h)
  | .object ((k, d) :: ms), _, _, _, _, _, fuel, blank, .members blank' member more, _, enough,
      h => by
    obtain ⟨content, before, after, spells⟩ := member
    simp only [List.cons_append, List.append_assoc] at h
    simp only [List.length_cons, List.length_append] at enough
    obtain ⟨fuel, rfl⟩ : ∃ n, fuel = n + 2 := ⟨fuel - 2, by omega⟩
    refine object_gives blank h fun c depth h => ?_
    rw [namedValues?]
    exact membersFrom_member content before (nextKey_first blank' h)
      (fun _ h => d.gives after spells more.avoids (by omega) h)
      (fun _ h => moreMembers_gives ms more (by omega) h)

theorem moreItems_gives : ∀ (ds : List Doc) {c : Cursor} {ts rest : List Char} {depth fuel : Nat},
    MoreItems ds ts → 2 * ts.length < fuel → c.At (ts ++ rest) →
    Gives (Cursor.itemsFrom fuel depth false c) (values? depth ds) rest
  | [], _, _, _, _, fuel + 1, .close blank, _, h => by
    rw [List.append_assoc] at h
    exact itemsFrom_close (nextItem_close blank h)
  | d :: ds, _, _, _, _, fuel + 1, .item blank blank' spells more, enough, h => by
    simp only [List.cons_append, List.append_assoc] at h
    simp only [List.length_cons, List.length_append] at enough
    rw [values?]
    exact itemsFrom_item (nextItem_comma blank blank' spells h)
      (fun _ h => d.gives Blank.nil spells more.avoids (by omega) h)
      (fun _ h => moreItems_gives ds more (by omega) h)

theorem moreMembers_gives : ∀ (ms : List (List UInt16 × Doc)) {c : Cursor} {ts rest : List Char}
    {depth fuel : Nat}, MoreMembers ms ts → 2 * ts.length < fuel → c.At (ts ++ rest) →
    Gives (Cursor.membersFrom fuel depth false c) (namedValues? depth ms) rest
  | [], _, _, _, _, fuel + 1, .close blank, _, h => by
    rw [List.append_assoc] at h
    exact membersFrom_close (nextKey_close blank h)
  | (k, d) :: ms, _, _, _, _, fuel + 1, .member blank blank' member more, enough, h => by
    obtain ⟨content, before, after, spells⟩ := member
    simp only [List.cons_append, List.append_assoc] at h
    simp only [List.length_cons, List.length_append] at enough
    rw [namedValues?]
    exact membersFrom_member content before (nextKey_comma blank blank' h)
      (fun _ h => d.gives after spells more.avoids (by omega) h)
      (fun _ h => moreMembers_gives ms more (by omega) h)

end

/-! ## Whole texts -/

section Texts

variable {c : Cursor} {d : Doc} {bytes : List UInt8} {w t : List Char}

theorem finish_ok (blank : Blank w) (h : c.At w) : c.finish = .ok () := by
  rw [← List.append_nil w] at h
  have h := h.skipSpace blank (by simp)
  simp [Cursor.finish, h.peek?_nil]

/-- A reader that comes to a value and leaves white space has read the whole text. -/
theorem Gives.finish {α : Type} {result : Except Error (α × Cursor)} {a? : Option α}
    (h : Gives result a? w) (blank : Blank w) :
    (result >>= fun x => x.2.finish >>= fun _ => .ok x.1).toOption = a? := by
  cases a? with
  | none =>
    obtain ⟨e, rfl⟩ := h
    rfl
  | some a =>
    obtain ⟨c, rfl, left⟩ := h
    simp only [Bind.bind, Except.bind, finish_ok blank left]
    rfl

theorem at_ofBytes {s : List Char} :
    (Cursor.ofBytes bytes).At s ↔ Utf8.text? bytes = some (String.ofList s) := by
  rw [Utf8.text?_eq_some_iff, String.toList_ofList]
  exact Iff.rfl

/-- A text with white space around it, as bytes. -/
theorem Spells.isText {w' : List Char} {s : String} (blank : Blank w) (spells : Spells d t)
    (blank' : Blank w') (same : s.toList = w ++ (t ++ w')) : d.IsText (Utf8.bytesOf s) := by
  refine ⟨w, t, w', blank, spells, blank', ?_⟩
  rw [← same]
  exact Utf8.text?_encode s.toList

/-- The bytes of a text are read as what its document stands for, and refused if it stands for
nothing. -/
theorem Doc.IsText.ofBytes (h : d.IsText bytes) :
    (Value.ofBytes bytes).toOption = d.value? depthLimit := by
  obtain ⟨w, t, w', blank, spells, blank', text⟩ := h
  have start := at_ofBytes.mpr text
  have enough : 2 * t.length ≤ (Cursor.ofBytes bytes).steps := by
    rw [Cursor.steps, start.length]
    simp only [List.length_append]
    omega
  have ends : Avoids isNumeric w' := by
    rw [← List.append_nil w']
    exact avoids_isNumeric_of_blank blank' (by simp)
  have gives : Gives ((Cursor.ofBytes bytes).value 0) (d.value? depthLimit) w' :=
    d.gives blank spells ends enough start
  exact gives.finish blank'

end Texts

end PluginHost.Json
