import PluginHost.Proofs.Toml.Values

/-!
# Documents that are read back

A document is written as sections, each a header and then its entries, one on a line. Reading
it does to the tables what the sections say, in their order.

* `Reads` is what the lines of a text make of a draft, however many steps are allowed.

Results:
1. `line_header` and `line_entryLine`: a header and an entry are read back.
2. `Reads.section_`: so is a section.
3. `document?_sectionsText`: so is a document.
-/

namespace PluginHost.Toml

/-! ## Definitions -/

/-- The header of a section names a table, and its numbers are not too large. -/
structure Section.Fits (s : Section) : Prop where
  path : s.path ≠ []
  entries : ∀ e ∈ s.entries, e.2.Fits

/-- The lines of a text take a draft to the tables `root`. -/
def Reads (d : Draft) (cs : List Char) (root : Members) : Prop :=
  ∀ fuel, cs.length < fuel → ∃ d', lines fuel d cs = some d' ∧ d'.root = root

/-! ## Lines -/

theorem length_le_arrayText (ss : List String) : ss.length + 1 ≤ (arrayText ss).length := by
  have many (ss : List String) : ss.length ≤ (ss.flatMap itemLine).length := by
    induction ss with
    | nil => exact Nat.le_refl 0
    | cons s ss ih =>
      rw [List.flatMap_cons, List.length_append, List.length_cons, Nat.add_comm]
      exact Nat.add_le_add (by simp [itemLine]) ih
  rcases ss with _ | ⟨s, _ | ⟨s', ss⟩⟩
  · exact Nat.le_succ 1
  · simp [arrayText]
  · have items := many (s :: s' :: ss)
    simp only [arrayText, List.length_cons, List.length_append] at items ⊢
    omega

theorem Entry.steps_le (e : Entry) : e.steps ≤ e.text.length := by
  cases e with
  | strings ss => exact length_le_arrayText ss
  | boolean | count | string => exact Nat.zero_le _

/-- A value does not start with a blank. -/
theorem Entry.skipBlanks_text (e : Entry) (rest : List Char) :
    skipBlanks (e.text ++ rest) = e.text ++ rest := by
  have first : ∃ c cs, e.text = c :: cs ∧ isBlank c = false := by
    cases e with
    | boolean b => cases b <;> exact ⟨_, _, rfl, rfl⟩
    | count n =>
      obtain ⟨c, cs, eq⟩ := List.exists_cons_of_ne_nil (Nat.toDigits_ne_nil (b := 10) (n := n))
      have word : isWord c = true := by
        have digit := Ascii.isDigit_of_mem_toDigits c (eq ▸ List.mem_cons_self)
        simp [isWord, isBare, Ascii.isAlnum, digit]
      exact ⟨c, cs, eq, isBlank_of_isWord word⟩
    | string s =>
      obtain ⟨q, cs, eq, quote⟩ := stringText_head s
      exact ⟨q, cs, eq, isBlank_of_isWord (isWord_of_quote quote)⟩
    | strings ss =>
      rcases ss with _ | ⟨_, _ | ⟨_, _⟩⟩ <;> exact ⟨_, _, rfl, rfl⟩
  obtain ⟨c, cs, eq, other⟩ := first
  rw [eq]
  exact skipBlanks_of_not_blank other _

theorem length_le_pathText (path : List String) : path.length ≤ (pathText path).length := by
  induction path with
  | nil => exact Nat.le_refl 0
  | cons part parts ih =>
    have some : 1 ≤ (keyText part).length := by
      obtain ⟨c, cs, eq, -⟩ := keyText_head part
      rw [eq]
      exact Nat.le_add_left 1 _
    cases parts with
    | nil => exact some
    | cons next parts =>
      rw [pathText, List.length_append, List.length_cons, List.length_cons, Nat.add_comm]
      · exact Nat.add_le_add some (ih.trans (Nat.le_succ _))
      · exact List.cons_ne_nil _ _

/-- The path of a table is read back from its header. -/
theorem header_pathText {path : List String} (some : path ≠ []) (rest : List Char) :
    header [']'] (pathText path ++ ']' :: rest) = .some (path, rest) := by
  obtain ⟨c, cs, eq, word⟩ := pathText_head some
  have start : skipBlanks (pathText path ++ ']' :: rest) = pathText path ++ ']' :: rest := by
    rw [eq]
    exact skipBlanks_of_not_blank (isBlank_of_isWord word) _
  have enough : path.length ≤ (pathText path ++ ']' :: rest).length + 1 := by
    have long := length_le_pathText path
    rw [List.length_append]
    omega
  have ends : key ((pathText path ++ ']' :: rest).length + 1) (pathText path ++ ']' :: rest) =
      .some (path, ']' :: rest) :=
    key_pathText path some (by rintro c ⟨⟩; rfl) (fun same => by cases same) enough
  rw [header, start, ends]
  rfl

/-- The header of a table is read back. -/
theorem line_header {path : List String} (some : path ≠ []) (d : Draft) (rest : List Char)
    (fuel : Nat) : line fuel d ('[' :: (pathText path ++ ']' :: rest)) =
      (d.root.state path).map fun root => (⟨root, path⟩, rest) := by
  obtain ⟨c, cs, eq, word⟩ := pathText_head some
  have bracket : c ≠ '[' := ne_of_isWord word (by decide)
  unfold line
  split
  case h_1 eq' =>
    rw [eq] at eq'
    exact absurd (List.cons.inj (List.cons.inj eq').2).1 bracket
  case h_2 eq' =>
    obtain rfl := (List.cons.inj eq').2
    simp only [header_pathText some, Option.bind_eq_bind, Option.bind_some]
    cases d.root.state path <;> rfl
  case h_3 _ other => exact absurd rfl (other _)

theorem entryLine_append (e : String × Entry) (rest : List Char) : entryLine e ++ rest =
    pathText [e.1] ++ ' ' :: '=' :: ' ' :: (e.2.text ++ '\n' :: rest) := by
  simp [entryLine, pathText]

/-- An entry starts with its key. -/
theorem entryLine_head (e : String × Entry) :
    ∃ c cs, entryLine e = c :: cs ∧ isWord c = true := by
  obtain ⟨c, cs, eq, word⟩ := keyText_head e.1
  rw [entryLine, eq]
  exact ⟨c, _, rfl, word⟩

/-- The key and the value of an entry are read back. -/
theorem pair_entryLine {e : String × Entry} (fits : e.2.Fits) (rest : List Char) {fuel : Nat}
    (enough : e.2.steps < fuel) : pair (fuel + 1) depthLimit (entryLine e ++ rest) =
      some ([e.1], e.2.value, '\n' :: rest) := by
  have named (fuel : Nat) : key (fuel + 1) (entryLine e ++ rest) =
      some ([e.1], '=' :: ' ' :: (e.2.text ++ '\n' :: rest)) := by
    rw [entryLine_append]
    exact key_pathText [e.1] (List.cons_ne_nil _ _) (by rintro c ⟨⟩; rfl)
      (fun same => by cases same) (Nat.le_add_left 1 fuel)
  have given := value_text e.2 fits rest enough 79
  rw [pair.eq_def]
  simp only [named, Option.bind_eq_bind, Option.bind_some, skipBlanks_blank,
    Entry.skipBlanks_text]
  rw [depthLimit, given]
  rfl

/-- An entry is read back. -/
theorem line_entryLine (e : String × Entry) (fits : e.2.Fits) (d : Draft) (rest : List Char)
    {fuel : Nat} (enough : e.2.steps + 1 < fuel) : line fuel d (entryLine e ++ rest) =
      (d.root.below d.path (·.assign [e.1] e.2.value)).map fun root =>
        ({ d with root }, '\n' :: rest) := by
  obtain ⟨fuel, rfl⟩ := Nat.exists_eq_add_one_of_ne_zero (Nat.ne_zero_of_lt enough)
  have other (more : List Char) : entryLine e ++ rest ≠ '[' :: more := by
    obtain ⟨c, cs, eq, word⟩ := entryLine_head e
    rw [eq]
    exact fun same => ne_of_isWord word (by decide) (List.cons.inj same).1
  have read := pair_entryLine fits rest (Nat.lt_of_succ_lt_succ enough)
  unfold line
  split
  case h_1 same => exact absurd same (other _)
  case h_2 same => exact absurd same (other _)
  case h_3 =>
    simp only [read, Option.bind_eq_bind, Option.bind_some]
    cases d.root.below d.path (·.assign [e.1] e.2.value) <;> rfl

/-! ## Texts -/

namespace Reads

variable {d d' : Draft} {cs rest : List Char} {root : Members}

theorem nil (d : Draft) : Reads d [] d.root := by
  intro fuel enough
  obtain ⟨fuel, rfl⟩ := Nat.exists_eq_add_one_of_ne_zero (Nat.ne_zero_of_lt enough)
  exact ⟨d, by simp [lines, skipIdle], rfl⟩

/-- An empty line changes nothing. -/
theorem newline (reads : Reads d rest root) : Reads d ('\n' :: rest) root := by
  intro fuel enough
  obtain ⟨d', read, eq⟩ := reads fuel (Nat.lt_of_succ_lt enough)
  obtain ⟨fuel, rfl⟩ := Nat.exists_eq_add_one_of_ne_zero (Nat.ne_zero_of_lt enough)
  refine ⟨d', ?_, eq⟩
  rw [lines] at read ⊢
  rw [skipIdle_newline]
  exact read

/-- A line that changes something. -/
theorem line (start : skipIdle false cs = some cs) (shorter : rest.length < cs.length)
    (read : Toml.line (3 * cs.length + 3) d cs = some (d', '\n' :: rest))
    (reads : Reads d' rest root) : Reads d cs root := by
  intro fuel enough
  obtain ⟨fuel, rfl⟩ := Nat.exists_eq_add_one_of_ne_zero (Nat.ne_zero_of_lt enough)
  obtain ⟨d'', others, eq⟩ := reads fuel (by omega)
  have some : cs ≠ [] := List.ne_nil_of_length_pos (Nat.zero_lt_of_lt shorter)
  refine ⟨d'', ?_, eq⟩
  rw [lines]
  simp only [start, Option.bind_eq_bind, Option.bind_some, if_neg some, read]
  exact others

/-- A header. -/
theorem header {path : List String} (some : path ≠ []) {root' : Members}
    (stated : d.root.state path = .some root') (reads : Reads ⟨root', path⟩ rest root) :
    Reads d ('[' :: (pathText path ++ ']' :: '\n' :: rest)) root := by
  refine .line (skipIdle_of_other (by decide) (by decide) (by decide) (by decide) _) ?_ ?_ reads
  · simp only [List.length_cons, List.length_append]
    omega
  · rw [line_header some, stated]
    rfl

/-- An entry. -/
theorem entryLine {e : String × Entry} (fits : e.2.Fits) {root' : Members}
    (assigned : d.root.below d.path (·.assign [e.1] e.2.value) = some root')
    (reads : Reads { d with root := root' } rest root) : Reads d (entryLine e ++ rest) root := by
  obtain ⟨c, cs, eq, word⟩ := entryLine_head e
  have start : skipIdle false (Toml.entryLine e ++ rest) = some (Toml.entryLine e ++ rest) := by
    rw [eq]
    exact skipIdle_of_isWord word _
  have shorter : rest.length < (Toml.entryLine e ++ rest).length := by
    rw [eq, List.length_append]
    exact Nat.lt_add_of_pos_left (Nat.succ_pos _)
  have steps : e.2.steps + 1 < 3 * (Toml.entryLine e ++ rest).length + 3 := by
    have few := e.2.steps_le
    rw [entryLine_append]
    simp only [List.length_append, List.length_cons]
    omega
  refine .line start shorter ?_ reads
  rw [line_entryLine e fits d rest steps, assigned]
  rfl

/-- Some entries. -/
theorem entries {es : List (String × Entry)} (fits : ∀ e ∈ es, e.2.Fits) {root' : Members}
    (assigned : es.foldlM
      (fun root e => root.below d.path (·.assign [e.1] e.2.value)) d.root = some root')
    (reads : Reads { d with root := root' } rest root) :
    Reads d (es.flatMap Toml.entryLine ++ rest) root := by
  induction es generalizing d with
  | nil =>
    obtain rfl := Option.some.inj assigned
    exact reads
  | cons e es ih =>
    obtain ⟨one, fits⟩ := List.forall_mem_cons.mp fits
    obtain ⟨root₁, first, others⟩ := Option.bind_eq_some_iff.mp assigned
    rw [List.flatMap_cons, List.append_assoc]
    exact .entryLine one first (ih (d := { d with root := root₁ }) fits others reads)

/-- A section. -/
theorem section_ {s : Section} (fits : s.Fits) {root' : Members}
    (entered : s.enter d.root = some root') (reads : Reads ⟨root', s.path⟩ rest root) :
    Reads d (s.text ++ rest) root := by
  obtain ⟨root₁, stated, assigned⟩ := Option.bind_eq_some_iff.mp entered
  have text : s.text ++ rest =
      '[' :: (pathText s.path ++ ']' :: '\n' :: (s.entries.flatMap Toml.entryLine ++ rest)) := by
    simp [Section.text]
  rw [text]
  exact .header fits.path stated (.entries (d := ⟨root₁, s.path⟩) fits.entries assigned reads)

/-- Some sections. -/
theorem sections {ss : List Section} (fits : ∀ s ∈ ss, s.Fits)
    (entered : ss.foldlM Section.enter d.root = some root) : Reads d (sectionsText ss) root := by
  induction ss generalizing d with
  | nil =>
    obtain rfl := Option.some.inj entered
    exact .nil d
  | cons s ss ih =>
    obtain ⟨one, fits⟩ := List.forall_mem_cons.mp fits
    obtain ⟨root₁, first, others⟩ := Option.bind_eq_some_iff.mp entered
    have reads := ih (d := ⟨root₁, s.path⟩) fits others
    cases ss with
    | nil =>
      have whole := section_ one first reads
      rw [sectionsText, List.append_nil] at whole
      exact whole
    | cons s' ss =>
      rw [sectionsText]
      · exact section_ one first reads.newline
      · exact List.cons_ne_nil _ _

end Reads

/-- A document is read back. -/
theorem document?_sectionsText {ss : List Section} (fits : ∀ s ∈ ss, s.Fits) {root : Members}
    (entered : ss.foldlM Section.enter [] = some root) :
    document? (String.ofList (sectionsText ss)) = some root.values := by
  have unmarked : afterMark (sectionsText ss) = sectionsText ss := by
    cases ss with
    | nil => rfl
    | cons s ss => cases ss <;> rfl
  have reads : Reads {} (sectionsText ss) root := .sections fits entered
  obtain ⟨d, read, eq⟩ := reads _ (Nat.lt_succ_self _)
  rw [document?, String.toList_ofList, unmarked]
  simp only [read, Option.map_some, eq]

end PluginHost.Toml
