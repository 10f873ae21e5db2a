import PluginHost.Proofs.Json.Reading

/-!
# Passing over a text of a document

A value of no interest is passed over to its end, whatever it stands for: it may nest too
deep, and its strings and numbers may stand for nothing.

Results:
1. `Doc.skips`: a text of a document is passed over, and no more.
-/

namespace PluginHost.Json

/-! ## Values that are no containers -/

section Scalars

variable {c : Cursor} {d : Doc} {t rest : List Char}

theorem skipScalar?_of_digit {x : Char} (digit : Ascii.isDigit x = true)
    (seen : c.peek? = some x) : c.skipScalar? = some c.skipNumber := by
  have noN : x ≠ 'n' := Ascii.ne_of_isDigit digit rfl
  have noT : x ≠ 't' := Ascii.ne_of_isDigit digit rfl
  have noF : x ≠ 'f' := Ascii.ne_of_isDigit digit rfl
  have noSign : x ≠ '-' := Ascii.ne_of_isDigit digit rfl
  simp [Cursor.skipScalar?, seen, noN, noT, noF, noSign, digit]

theorem skipScalar?_passes (scalar : d.IsScalar) (spells : Spells d t)
    (ends : Avoids isNumeric rest) (h : c.At (t ++ rest)) :
    ∃ result, c.skipScalar? = some result ∧ Passes result rest := by
  cases spells with
  | null => exact ⟨_, by simp [Cursor.skipScalar?, h.peek?_cons], h.advance.word⟩
  | yes => exact ⟨_, by simp [Cursor.skipScalar?, h.peek?_cons], h.advance.word⟩
  | no => exact ⟨_, by simp [Cursor.skipScalar?, h.peek?_cons], h.advance.word⟩
  | number l =>
    rcases l.sign_at h with ⟨-, seen, h⟩ | ⟨-, ⟨x, digit, seen⟩, h⟩
    · exact ⟨_, by simp [Cursor.skipScalar?, seen], l.skips h ends⟩
    · exact ⟨_, skipScalar?_of_digit digit seen, l.skips h ends⟩
  | @string us t content =>
    rw [List.cons_append, List.append_assoc] at h
    exact ⟨_, by simp [Cursor.skipScalar?, h.peek?_cons, Ascii.isDigit], content.skips h.advance⟩
  | _ => cases scalar

end Scalars

/-! ## Documents -/

section Containers

variable {c : Cursor} {s rest : List Char} {fuel : Nat}

/-- A value that is no container, after white space. -/
theorem scalar_passes {d : Doc} {w t : List Char} (scalar : d.IsScalar) (blank : Blank w)
    (spells : Spells d t) (ends : Avoids isNumeric rest) (enough : 2 * t.length ≤ fuel)
    (h : c.At (w ++ (t ++ rest))) : Passes (Cursor.skipFrom fuel c) rest := by
  have pos := spells.length_pos
  obtain ⟨fuel, rfl⟩ : ∃ n, fuel = n + 1 := ⟨fuel - 1, by omega⟩
  obtain ⟨result, skip, passes⟩ :=
    skipScalar?_passes scalar spells ends (h.skipSpace blank spells.avoids)
  rw [Cursor.skipFrom]
  simp only [skip]
  exact passes

theorem noItems_passes {w w' : List Char} (blank : Blank w) (blank' : Blank w')
    (h : c.At (w ++ '[' :: (w' ++ ']' :: rest))) : Passes (Cursor.skipFrom (fuel + 1) c) rest := by
  have h := h.skipSpace blank (avoids_cons.mpr rfl)
  have h' := h.advance.skipSpace blank' (avoids_cons.mpr rfl)
  have container : c.skipSpace.skipScalar? = none := by
    simp [Cursor.skipScalar?, h.peek?_cons, Ascii.isDigit]
  rw [Cursor.skipFrom]
  simp only [container, h.peek?_cons, ↓reduceIte, h'.peek?_cons]
  exact ⟨_, rfl, h'.advance⟩

/-- An array, if its items are passed over from the first on. -/
theorem items_passes {d : Doc} {w w' t : List Char} (blank : Blank w) (blank' : Blank w')
    (spells : Spells d t) (h : c.At (w ++ '[' :: (w' ++ (t ++ s))))
    (items : ∀ c : Cursor, c.At (t ++ s) → Passes (Cursor.skipItems fuel c) rest) :
    Passes (Cursor.skipFrom (fuel + 1) c) rest := by
  have h := h.skipSpace blank (avoids_cons.mpr rfl)
  have h' := h.advance.skipSpace blank' spells.avoids
  have container : c.skipSpace.skipScalar? = none := by
    simp [Cursor.skipScalar?, h.peek?_cons, Ascii.isDigit]
  have further := items _ h'
  obtain ⟨x, u, rfl, -, bracket⟩ := spells.start
  rw [Cursor.skipFrom]
  simp only [container, h.peek?_cons, ↓reduceIte, h'.peek?_cons]
  exact further

theorem noMembers_passes {w w' : List Char} (blank : Blank w) (blank' : Blank w')
    (h : c.At (w ++ '{' :: (w' ++ '}' :: rest))) : Passes (Cursor.skipFrom (fuel + 1) c) rest := by
  have h := h.skipSpace blank (avoids_cons.mpr rfl)
  have h' := h.advance.skipSpace blank' (avoids_cons.mpr rfl)
  have container : c.skipSpace.skipScalar? = none := by
    simp [Cursor.skipScalar?, h.peek?_cons, Ascii.isDigit]
  have other : ¬ some '{' = some '[' := by decide
  rw [Cursor.skipFrom]
  simp only [container, h.peek?_cons, other, ↓reduceIte, h'.peek?_cons]
  exact ⟨_, rfl, h'.advance⟩

/-- An object, if its members are passed over from the first key on. -/
theorem members_passes {w w' : List Char} (blank : Blank w) (blank' : Blank w')
    (h : c.At (w ++ '{' :: (w' ++ '"' :: s)))
    (members : ∀ c : Cursor, c.At ('"' :: s) → Passes (Cursor.skipMembers fuel c) rest) :
    Passes (Cursor.skipFrom (fuel + 1) c) rest := by
  have h := h.skipSpace blank (avoids_cons.mpr rfl)
  have h' := h.advance.skipSpace blank' (avoids_cons.mpr rfl)
  have container : c.skipSpace.skipScalar? = none := by
    simp [Cursor.skipScalar?, h.peek?_cons, Ascii.isDigit]
  have other : ¬ some '{' = some '[' := by decide
  rw [Cursor.skipFrom]
  simp only [container, h.peek?_cons, other, ↓reduceIte, h'.peek?_cons]
  exact members _ h'

/-- A key and the colon after it, after white space. -/
theorem skipKey_passes {k : List UInt16} {w w' t : List Char} (blank : Blank w) (blank' : Blank w')
    (content : Content k t) (h : c.At (w ++ '"' :: (t ++ '"' :: (w' ++ ':' :: rest)))) :
    Passes c.skipKey rest := by
  have h := h.skipSpace blank (avoids_cons.mpr rfl)
  unfold Cursor.skipKey
  simp only [h.peek?_cons]
  exact (content.skips h.advance).then fun c h => colon_passes blank' h

end Containers

mutual

/-- A text of a document is passed over, and no more. -/
theorem Doc.skips : ∀ (d : Doc) {c : Cursor} {w t rest : List Char} {fuel : Nat},
    Blank w → Spells d t → Avoids isNumeric rest → 2 * t.length ≤ fuel →
    c.At (w ++ (t ++ rest)) → Passes (Cursor.skipFrom fuel c) rest
  | .null, _, _, _, _, _, blank, spells, ends, enough, h =>
    scalar_passes (d := .null) trivial blank spells ends enough h
  | .bool b, _, _, _, _, _, blank, spells, ends, enough, h =>
    scalar_passes (d := .bool b) trivial blank spells ends enough h
  | .number l, _, _, _, _, _, blank, spells, ends, enough, h =>
    scalar_passes (d := .number l) trivial blank spells ends enough h
  | .string us, _, _, _, _, _, blank, spells, ends, enough, h =>
    scalar_passes (d := .string us) trivial blank spells ends enough h
  | .array [], _, _, _, _, fuel, blank, .noItems blank', _, enough, h => by
    rw [List.cons_append, List.append_assoc] at h
    simp only [List.length_cons, List.length_append] at enough
    obtain ⟨fuel, rfl⟩ : ∃ n, fuel = n + 1 := ⟨fuel - 1, by omega⟩
    exact noItems_passes blank blank' h
  | .array (d :: ds), _, _, _, _, fuel, blank, .items blank' spells more, _, enough, h => by
    simp only [List.cons_append, List.append_assoc] at h
    simp only [List.length_cons, List.length_append] at enough
    obtain ⟨fuel, rfl⟩ : ∃ n, fuel = n + 2 := ⟨fuel - 2, by omega⟩
    refine items_passes blank blank' spells h fun c h => ?_
    exact moreItems_passes ds more (by omega)
      (d.skips Blank.nil spells more.avoids (by omega) h)
  | .object [], _, _, _, _, fuel, blank, .noMembers blank', _, enough, h => by
    rw [List.cons_append, List.append_assoc] at h
    simp only [List.length_cons, List.length_append] at enough
    obtain ⟨fuel, rfl⟩ : ∃ n, fuel = n + 1 := ⟨fuel - 1, by omega⟩
    exact noMembers_passes blank blank' h
  | .object ((k, d) :: ms), _, _, _, _, fuel, blank, .members blank' member more, _, enough,
      h => by
    obtain ⟨content, before, after, spells⟩ := member
    simp only [List.cons_append, List.append_assoc] at h
    simp only [List.length_cons, List.length_append] at enough
    obtain ⟨fuel, rfl⟩ : ∃ n, fuel = n + 2 := ⟨fuel - 2, by omega⟩
    refine members_passes blank blank' h fun c h => ?_
    exact moreMembers_passes ms more (by omega)
      ((skipKey_passes Blank.nil before content h).then fun c h =>
        d.skips after spells more.avoids (by omega) h)

/-- The items of an array after one that is passed over. -/
theorem moreItems_passes : ∀ (ds : List Doc) {c : Cursor} {ts rest : List Char} {fuel : Nat},
    MoreItems ds ts → 2 * ts.length ≤ fuel → Passes (Cursor.skipFrom fuel c) (ts ++ rest) →
    Passes (Cursor.skipItems (fuel + 1) c) rest
  | [], _, _, _, _, .close blank, _, h => by
    rw [List.append_assoc] at h
    rw [Cursor.skipItems]
    refine h.then fun c h => ?_
    have h := h.skipSpace blank (avoids_cons.mpr rfl)
    simp only [h.peek?_cons]
    exact ⟨_, rfl, h.advance⟩
  | d :: ds, _, _, _, fuel, .item blank blank' spells more, enough, h => by
    simp only [List.cons_append, List.append_assoc] at h
    simp only [List.length_cons, List.length_append] at enough
    obtain ⟨fuel, rfl⟩ : ∃ n, fuel = n + 1 := ⟨fuel - 1, by omega⟩
    rw [Cursor.skipItems]
    refine h.then fun c h => ?_
    have h := h.skipSpace blank (avoids_cons.mpr rfl)
    simp only [h.peek?_cons]
    exact moreItems_passes ds more (by omega)
      (d.skips blank' spells more.avoids (by omega) h.advance)

/-- The members of an object after one that is passed over. -/
theorem moreMembers_passes : ∀ (ms : List (List UInt16 × Doc)) {c : Cursor} {ts rest : List Char}
    {fuel : Nat}, MoreMembers ms ts → 2 * ts.length ≤ fuel →
    Passes (c.skipKey >>= Cursor.skipFrom fuel) (ts ++ rest) →
    Passes (Cursor.skipMembers (fuel + 1) c) rest
  | [], c, _, _, fuel, .close blank, _, h => by
    rw [List.append_assoc] at h
    obtain ⟨c', skip, h⟩ := h
    obtain ⟨c₁, key, value⟩ := bind_eq_ok_iff.mp skip
    have h := h.skipSpace blank (avoids_cons.mpr rfl)
    rw [Cursor.skipMembers, key]
    simp only [bind, Except.bind, value, h.peek?_cons]
    exact ⟨_, rfl, h.advance⟩
  | (k, d) :: ms, c, _, _, fuel, .member blank blank' member more, enough, h => by
    obtain ⟨content, before, after, spells⟩ := member
    simp only [List.cons_append, List.append_assoc] at h
    simp only [List.length_cons, List.length_append] at enough
    obtain ⟨c', skip, h⟩ := h
    obtain ⟨c₁, key, value⟩ := bind_eq_ok_iff.mp skip
    have h := h.skipSpace blank (avoids_cons.mpr rfl)
    rw [Cursor.skipMembers, key]
    simp only [bind, Except.bind, value, h.peek?_cons]
    obtain ⟨fuel, rfl⟩ : ∃ n, fuel = n + 1 := ⟨fuel - 1, by omega⟩
    exact moreMembers_passes ms more (by omega)
      ((skipKey_passes blank' before content h.advance).then fun c h =>
        d.skips after spells more.avoids (by omega) h)

end

end PluginHost.Json
