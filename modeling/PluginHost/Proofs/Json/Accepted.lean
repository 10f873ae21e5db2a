import PluginHost.Proofs.Json.Reading

/-!
# What is read is a text of a document

A reader goes from left to right and looks at one character at a time. Whatever it comes
to the end of follows the grammar.

Results:
1. `rest_of_valueFrom`: what is read as a value is white space and a text of a document.
2. `ofBytes_eq_ok_iff`: exactly the texts of documents that stand for something are accepted.
-/

namespace PluginHost.Json

/-! ## Marks of containers -/

section Marks

variable {c c' : Cursor} {first : Bool}

theorem rest_of_nextItem_close (h : c.nextItem first = .ok (false, c')) :
    ∃ w, Blank w ∧ c.rest = (w ++ [']']).map .char ++ c'.advance.rest := by
  obtain ⟨w, blank, there⟩ := c.skipSpace_rest
  dsimp only [Cursor.nextItem] at h
  split at h
  · cases h
  · next seen =>
    cases h
    exact ⟨w, blank, by rw [there, Cursor.rest_of_peek? seen (by decide)]; simp⟩
  · split at h
    · cases h
    · split at h
      · split at h <;> cases h
      · cases h

theorem rest_of_nextItem_first (h : c.nextItem true = .ok (true, c')) :
    ∃ w, Blank w ∧ c.rest = w.map .char ++ c'.rest := by
  obtain ⟨w, blank, there⟩ := c.skipSpace_rest
  dsimp only [Cursor.nextItem] at h
  split at h
  · cases h
  · cases h
  · cases h
    exact ⟨w, blank, there⟩

theorem rest_of_nextItem_comma (h : c.nextItem false = .ok (true, c')) :
    ∃ w w', Blank w ∧ Blank w' ∧ c.rest = (w ++ ',' :: w').map .char ++ c'.rest := by
  obtain ⟨w, blank, there⟩ := c.skipSpace_rest
  obtain ⟨w', blank', there'⟩ := c.skipSpace.advance.skipSpace_rest
  dsimp only [Cursor.nextItem] at h
  split at h
  · cases h
  · cases h
  · next seen =>
    simp only [Bool.false_eq_true, ↓reduceIte] at h
    split at h
    · next comma =>
      subst comma
      split at h
      · cases h
      · cases h
      · cases h
        refine ⟨w, w', blank, blank', ?_⟩
        rw [there, Cursor.rest_of_peek? seen (by decide), there']
        simp
    · cases h

theorem rest_of_nextKey_close (h : c.nextKey first = .ok (false, c')) :
    ∃ w, Blank w ∧ c.rest = (w ++ ['}']).map .char ++ c'.advance.rest := by
  obtain ⟨w, blank, there⟩ := c.skipSpace_rest
  dsimp only [Cursor.nextKey] at h
  split at h
  · cases h
  · next x seen =>
    split at h
    · next brace =>
      cases h
      have : x = '}' := Char.toNat_inj.mp brace
      subst this
      exact ⟨w, blank, by rw [there, Cursor.rest_of_peek? seen (by decide)]; simp⟩
    · split at h
      · split at h <;> cases h
      · split at h
        · split at h
          · cases h
          · split at h
            · cases h
            · split at h <;> cases h
        · cases h

theorem rest_of_nextKey_first (h : c.nextKey true = .ok (true, c')) :
    ∃ w, Blank w ∧ c.rest = (w ++ ['"']).map .char ++ c'.rest := by
  obtain ⟨w, blank, there⟩ := c.skipSpace_rest
  dsimp only [Cursor.nextKey] at h
  split at h
  · cases h
  · next x seen =>
    split at h
    · cases h
    · simp only [↓reduceIte] at h
      split at h
      · next quote =>
        cases h
        have : x = '"' := Char.toNat_inj.mp quote
        subst this
        exact ⟨w, blank, by rw [there, Cursor.rest_of_peek? seen (by decide)]; simp⟩
      · cases h

theorem rest_of_nextKey_comma (h : c.nextKey false = .ok (true, c')) :
    ∃ w w', Blank w ∧ Blank w' ∧ c.rest = (w ++ ',' :: (w' ++ ['"'])).map .char ++ c'.rest := by
  obtain ⟨w, blank, there⟩ := c.skipSpace_rest
  obtain ⟨w', blank', there'⟩ := c.skipSpace.advance.skipSpace_rest
  dsimp only [Cursor.nextKey] at h
  split at h
  · cases h
  · next x seen =>
    split at h
    · cases h
    · simp only [Bool.false_eq_true, ↓reduceIte] at h
      split at h
      · next comma =>
        subst comma
        split at h
        · cases h
        · next y seen' =>
          split at h
          · next quote =>
            cases h
            have : y = '"' := Char.toNat_inj.mp quote
            subst this
            refine ⟨w, w', blank, blank', ?_⟩
            rw [there, Cursor.rest_of_peek? seen (by decide), there',
              Cursor.rest_of_peek? seen' (by decide)]
            simp
          · split at h <;> cases h
      · cases h

theorem rest_of_colon (h : c.colon = .ok c') :
    ∃ w, Blank w ∧ c.rest = (w ++ [':']).map .char ++ c'.rest := by
  obtain ⟨w, blank, there⟩ := c.skipSpace_rest
  dsimp only [Cursor.colon] at h
  split at h
  · cases h
  · next seen =>
    cases h
    exact ⟨w, blank, by rw [there, Cursor.rest_of_peek? seen (by decide)]; simp⟩
  · cases h

end Marks

/-! ## Values that are no containers -/

section Scalars

variable {c c' : Cursor} {v : Value} {x : Char} {xs : List Char}

theorem rest_of_named {f : Cursor → Value × Cursor} (seen : c.peek? = some x)
    (ascii : (x :: xs).all (· ≠ Char.ofNat 0xFFFD)) (same : ∀ c, (f c).2 = c)
    (h : (c.advance.word xs).map f = .ok (v, c')) : c.rest = (x :: xs).map .char ++ c'.rest := by
  have ascii {y : Char} (hy : y ∈ x :: xs) : y ≠ Char.ofNat 0xFFFD :=
    of_decide_eq_true (List.all_eq_true.mp ascii y hy)
  obtain ⟨c₁, word, read⟩ := map_eq_ok_iff.mp h
  have : c' = c₁ := by rw [← same c₁, read]
  subst this
  rw [Cursor.rest_of_peek? seen (ascii List.mem_cons_self),
    Cursor.rest_of_word (fun y hy => ascii (List.mem_cons_of_mem x hy)) word]
  rfl

/-- What is read as a value that is no container is a text of one. -/
theorem rest_of_scalar? (h : c.scalar? = some (.ok (v, c'))) :
    ∃ d t, Spells d t ∧ c.rest = t.map .char ++ c'.rest := by
  unfold Cursor.scalar? at h
  split at h
  · cases h
  · next x seen =>
    split at h
    · next letter =>
      subst letter
      exact ⟨_, _, .null, rest_of_named seen (by decide) (fun _ => rfl) (Option.some.inj h)⟩
    · split at h
      · next letter =>
        subst letter
        exact ⟨_, _, .yes, rest_of_named seen (by decide) (fun _ => rfl) (Option.some.inj h)⟩
      · split at h
        · next letter =>
          subst letter
          exact ⟨_, _, .no, rest_of_named seen (by decide) (fun _ => rfl) (Option.some.inj h)⟩
        · split at h
          · next sign =>
            subst sign
            obtain ⟨⟨n, c₁⟩, read, same⟩ := map_eq_ok_iff.mp (Option.some.inj h)
            cases same
            obtain ⟨l, negative, there⟩ := Cursor.rest_of_number read
            refine ⟨_, _, .number l, ?_⟩
            rw [Cursor.rest_of_peek? seen (by decide), there]
            simp [Literal.chars, Literal.signChars, negative]
          · split at h
            · obtain ⟨⟨n, c₁⟩, read, same⟩ := map_eq_ok_iff.mp (Option.some.inj h)
              cases same
              obtain ⟨l, negative, there⟩ := Cursor.rest_of_number read
              refine ⟨_, _, .number l, ?_⟩
              rw [there]
              simp [Literal.chars, Literal.signChars, negative]
            · split at h
              · next quote =>
                obtain ⟨⟨s, c₁⟩, read, same⟩ := map_eq_ok_iff.mp (Option.some.inj h)
                cases same
                have : x = '"' := Char.toNat_inj.mp quote
                subst this
                obtain ⟨t, content, there⟩ := Cursor.rest_of_string read
                refine ⟨_, _, .string content, ?_⟩
                rw [Cursor.rest_of_peek? seen (by decide), there]
                simp
              · split at h <;> cases h

/-- Where no other value starts, a container does. -/
theorem peek?_of_no_scalar (h : c.scalar? = none) : c.peek? = some '[' ∨ c.peek? = some '{' := by
  unfold Cursor.scalar? at h
  split at h
  · cases h
  · next x seen =>
    rw [seen]
    repeat' split at h
    any_goals cases h
    next container =>
      rcases container with rfl | brace
      · exact .inl rfl
      · exact .inr (congrArg some (Char.toNat_inj.mp brace))

end Scalars

/-! ## Documents -/

section Documents

variable {c c' : Cursor} {w t : List Char}

/-- Characters that were passed over before others. -/
theorem rest_trans {c₁ : Cursor} (h : c.rest = w.map .char ++ c₁.rest)
    (h' : c₁.rest = t.map .char ++ c'.rest) : c.rest = (w ++ t).map .char ++ c'.rest := by
  rw [h, h', List.map_append, List.append_assoc]

/-- The character at the cursor and what was passed over after it. -/
theorem rest_cons {x : Char} (seen : c.peek? = some x) (ascii : x ≠ Char.ofNat 0xFFFD)
    (h : c.advance.rest = t.map .char ++ c'.rest) : c.rest = (x :: t).map .char ++ c'.rest := by
  rw [Cursor.rest_of_peek? seen ascii, h]
  rfl

end Documents

mutual

/-- What is read as a value is white space and a text of a document. -/
theorem rest_of_valueFrom : ∀ (fuel : Nat) {depth : Nat} {c c' : Cursor} {v : Value},
    Cursor.valueFrom fuel depth c = .ok (v, c') →
    ∃ d w t, Blank w ∧ Spells d t ∧ c.rest = (w ++ t).map .char ++ c'.rest
  | fuel + 1, depth, c, c', v, h => by
    obtain ⟨w, blank, there⟩ := c.skipSpace_rest
    rw [Cursor.valueFrom.eq_def] at h
    dsimp only at h
    split at h
    · next result scalar =>
      subst h
      obtain ⟨d, t, spells, read⟩ := rest_of_scalar? scalar
      exact ⟨d, w, t, blank, spells, rest_trans there read⟩
    · next container =>
      split at h
      · cases h
      · split at h
        · next bracket =>
          obtain ⟨⟨vs, c₁⟩, items, h⟩ := bind_eq_ok_iff.mp h
          cases h
          obtain ⟨ds, t, spells, read⟩ := rest_of_items fuel items
          exact ⟨_, w, _, blank, spells, rest_trans there (rest_cons bracket (by decide) read)⟩
        · next other =>
          -- What is no scalar and no array opens an object, as nothing else is let through.
          have brace := (peek?_of_no_scalar container).resolve_left other
          obtain ⟨⟨ms, c₁⟩, members, h⟩ := bind_eq_ok_iff.mp h
          cases h
          obtain ⟨ms, t, spells, read⟩ := rest_of_members fuel members
          exact ⟨_, w, _, blank, spells, rest_trans there (rest_cons brace (by decide) read)⟩

/-- What is read after an opening bracket ends an array. -/
theorem rest_of_items : ∀ (fuel : Nat) {depth : Nat} {c c' : Cursor} {vs : List Value},
    Cursor.itemsFrom fuel depth true c = .ok (vs, c') →
    ∃ ds t, Spells (.array ds) ('[' :: t) ∧ c.rest = t.map .char ++ c'.rest
  | fuel + 1, depth, c, c', vs, h => by
    rw [Cursor.itemsFrom] at h
    obtain ⟨⟨more, c₁⟩, next, h⟩ := bind_eq_ok_iff.mp h
    cases more with
    | false =>
      cases h
      obtain ⟨w, blank, there⟩ := rest_of_nextItem_close next
      exact ⟨_, _, .noItems blank, there⟩
    | true =>
      obtain ⟨⟨v, c₂⟩, value, h⟩ := bind_eq_ok_iff.mp h
      obtain ⟨⟨vs, c₃⟩, further, h⟩ := bind_eq_ok_iff.mp h
      cases h
      obtain ⟨w, blank, there⟩ := rest_of_nextItem_first next
      obtain ⟨d, w', t, blank', spells, read⟩ := rest_of_valueFrom fuel value
      obtain ⟨ds, ts, items, read'⟩ := rest_of_moreItems fuel further
      refine ⟨_, _, .items (blank.append blank') spells items, ?_⟩
      rw [there, read, read']
      simp

/-- What is read after an item ends an array. -/
theorem rest_of_moreItems : ∀ (fuel : Nat) {depth : Nat} {c c' : Cursor} {vs : List Value},
    Cursor.itemsFrom fuel depth false c = .ok (vs, c') →
    ∃ ds t, MoreItems ds t ∧ c.rest = t.map .char ++ c'.rest
  | fuel + 1, depth, c, c', vs, h => by
    rw [Cursor.itemsFrom] at h
    obtain ⟨⟨more, c₁⟩, next, h⟩ := bind_eq_ok_iff.mp h
    cases more with
    | false =>
      cases h
      obtain ⟨w, blank, there⟩ := rest_of_nextItem_close next
      exact ⟨_, _, .close blank, there⟩
    | true =>
      obtain ⟨⟨v, c₂⟩, value, h⟩ := bind_eq_ok_iff.mp h
      obtain ⟨⟨vs, c₃⟩, further, h⟩ := bind_eq_ok_iff.mp h
      cases h
      obtain ⟨w, w', blank, before, there⟩ := rest_of_nextItem_comma next
      obtain ⟨d, u, t, after, spells, read⟩ := rest_of_valueFrom fuel value
      obtain ⟨ds, ts, items, read'⟩ := rest_of_moreItems fuel further
      refine ⟨_, _, .item blank (before.append after) spells items, ?_⟩
      rw [there, read, read']
      simp

/-- What is read after an opening brace ends an object. -/
theorem rest_of_members : ∀ (fuel : Nat) {depth : Nat} {c c' : Cursor}
    {ms : List (String × Value)}, Cursor.membersFrom fuel depth true c = .ok (ms, c') →
    ∃ ms t, Spells (.object ms) ('{' :: t) ∧ c.rest = t.map .char ++ c'.rest
  | fuel + 1, depth, c, c', ms, h => by
    rw [Cursor.membersFrom] at h
    obtain ⟨⟨more, c₁⟩, next, h⟩ := bind_eq_ok_iff.mp h
    cases more with
    | false =>
      cases h
      obtain ⟨w, blank, there⟩ := rest_of_nextKey_close next
      exact ⟨_, _, .noMembers blank, there⟩
    | true =>
      obtain ⟨⟨k, c₂⟩, key, h⟩ := bind_eq_ok_iff.mp h
      obtain ⟨c₃, colon, h⟩ := bind_eq_ok_iff.mp h
      obtain ⟨⟨v, c₄⟩, value, h⟩ := bind_eq_ok_iff.mp h
      obtain ⟨⟨ms, c₅⟩, further, h⟩ := bind_eq_ok_iff.mp h
      cases h
      obtain ⟨w, blank, there⟩ := rest_of_nextKey_first next
      obtain ⟨s, content, name⟩ := Cursor.rest_of_string key
      obtain ⟨u, before, mark⟩ := rest_of_colon colon
      obtain ⟨d, u', t, after, spells, read⟩ := rest_of_valueFrom fuel value
      obtain ⟨ms, ts, members, read'⟩ := rest_of_moreMembers fuel further
      refine ⟨_, _, .members blank (.mk content before after spells) members, ?_⟩
      rw [there, name, mark, read, read']
      simp

/-- What is read after a member ends an object. -/
theorem rest_of_moreMembers : ∀ (fuel : Nat) {depth : Nat} {c c' : Cursor}
    {ms : List (String × Value)}, Cursor.membersFrom fuel depth false c = .ok (ms, c') →
    ∃ ms t, MoreMembers ms t ∧ c.rest = t.map .char ++ c'.rest
  | fuel + 1, depth, c, c', ms, h => by
    rw [Cursor.membersFrom] at h
    obtain ⟨⟨more, c₁⟩, next, h⟩ := bind_eq_ok_iff.mp h
    cases more with
    | false =>
      cases h
      obtain ⟨w, blank, there⟩ := rest_of_nextKey_close next
      exact ⟨_, _, .close blank, there⟩
    | true =>
      obtain ⟨⟨k, c₂⟩, key, h⟩ := bind_eq_ok_iff.mp h
      obtain ⟨c₃, colon, h⟩ := bind_eq_ok_iff.mp h
      obtain ⟨⟨v, c₄⟩, value, h⟩ := bind_eq_ok_iff.mp h
      obtain ⟨⟨ms, c₅⟩, further, h⟩ := bind_eq_ok_iff.mp h
      cases h
      obtain ⟨w, w', blank, blank', there⟩ := rest_of_nextKey_comma next
      obtain ⟨s, content, name⟩ := Cursor.rest_of_string key
      obtain ⟨u, before, mark⟩ := rest_of_colon colon
      obtain ⟨d, u', t, after, spells, read⟩ := rest_of_valueFrom fuel value
      obtain ⟨ms, ts, members, read'⟩ := rest_of_moreMembers fuel further
      refine ⟨_, _, .member blank blank' (.mk content before after spells) members, ?_⟩
      rw [there, name, mark, read, read']
      simp

end

/-! ## Whole texts -/

section Texts

variable {bytes : List UInt8} {v : Value}

theorem rest_of_finish {c : Cursor} (h : c.finish = .ok ()) : ∃ w, Blank w ∧ c.At w := by
  obtain ⟨w, blank, there⟩ := c.skipSpace_rest
  dsimp only [Cursor.finish] at h
  split at h
  · next nothing =>
    refine ⟨w, blank, ?_⟩
    rw [Cursor.At, there, Cursor.rest_of_peek?_none nothing, List.append_nil]
  · cases h

/-- What is accepted is a text of a document. -/
theorem isText_of_ofBytes (h : Value.ofBytes bytes = .ok v) : ∃ d : Doc, d.IsText bytes := by
  obtain ⟨⟨v, c⟩, value, h⟩ := bind_eq_ok_iff.mp h
  obtain ⟨⟨⟩, finish, h⟩ := bind_eq_ok_iff.mp h
  obtain ⟨d, w, t, blank, spells, there⟩ := rest_of_valueFrom _ value
  obtain ⟨w', blank', left⟩ := rest_of_finish finish
  refine ⟨d, w, t, w', blank, spells, blank', at_ofBytes.mp ?_⟩
  rw [Cursor.At, there, left]
  simp

/-- Exactly the texts of documents that stand for something are accepted. -/
theorem ofBytes_eq_ok_iff :
    Value.ofBytes bytes = .ok v ↔ ∃ d : Doc, d.IsText bytes ∧ d.value? depthLimit = some v := by
  constructor
  · intro h
    obtain ⟨d, text⟩ := isText_of_ofBytes h
    refine ⟨d, text, ?_⟩
    rw [← text.ofBytes, h]
    rfl
  · rintro ⟨d, text, value⟩
    rw [← text.ofBytes] at value
    cases read : Value.ofBytes bytes with
    | error e =>
      rw [read] at value
      cases value
    | ok w =>
      rw [read] at value
      exact congrArg Except.ok (Option.some.inj value)

end Texts

end PluginHost.Json
