import Mathlib.Data.List.DropRight
import PluginHost.Files.Path
import PluginHost.Proofs.Text.Split
import PluginHost.Proofs.Text.Utf8

/-!
# Paths that are put together and taken apart

A name that is put below a path is its last part, and what is above it is the path. Parts that
count for nothing are left out where a path is taken apart, so two texts may stand for one path:
paths are compared by their components.

* `Path.IsSegment` are the parts that name something.
* `Path.components` are what a path comes to.
* `Path.folder` is the path above a path.
* `Path.HasExtension` says what comes after the last dot of a name.
* `Path.Before` is the order of paths, which is not that of their texts.

Results:
1. `Path.components_join`, `Path.fileName?_join` and `Path.folder_join`: what a name that is put
   below a path makes of it.
2. `Path.parent?_eq_folder` and `Path.components_eq_folder`: what a path with a name consists of.
3. `Path.trimmed_assembled` and `Path.trimmed_folder`: what is put together without idle parts at its
   end has none there.
4. `Path.cutAtDot_eq_some_iff` and `Path.extension?_eq_some_iff`: how a name is cut.
5. `Path.before_of_lt`: paths that go on with different names are ordered as these are.
-/

namespace PluginHost.Path

/-! ## Definitions -/

/-- A part of a path that names something: it is not empty, it is not `.`, and it has no `/`. -/
structure IsSegment (name : String) : Prop where
  some : name ≠ ""
  here : name ≠ "."
  plain : '/' ∉ name.toList

/-- All parts after the start, idle ones with them. -/
def body (path : List Char) : List (List Char) :=
  splitOn '/' (path.drop (start path).length)

/-- What a path comes to: its start, if it has any, and the parts that are not idle. -/
def components (path : String) : List String :=
  ([start path.toList].filter (· ≠ []) ++ (body path.toList).filter (!isIdle ·)).map String.ofList

/-- The path that starts like another and has some parts. -/
def assembled (path : String) (parts : List (List Char)) : String :=
  String.ofList (start path.toList ++ joinWith '/' parts)

/-- The path without idle parts at its end. -/
def trimmed (path : String) : String :=
  assembled path (parts path.toList)

/-- The path above a path, for one that has a part to leave out. -/
def folder (path : String) : String :=
  assembled path ((parts path.toList).dropLast.rdropWhile isIdle)

/-- The extension is what comes after the last dot of a name, if this dot is not in front. -/
def HasExtension (name extension : String) : Prop :=
  ∃ stem ≠ [], name.toList = stem ++ '.' :: extension.toList ∧ '.' ∉ extension.toList

/-- One path comes before another if its components do, of which the first that differ are compared
by their bytes. -/
def Before (p q : String) : Prop :=
  (components p).map Utf8.bytesOf < (components q).map Utf8.bytesOf

/-! ## Parts -/

section parts

variable {path dir name : String} {cs part : List Char} {ps above : List (List Char)}

theorem isIdle_eq_false_iff : isIdle part = false ↔ part ≠ [] ∧ part ≠ ['.'] := by
  simp [isIdle]

theorem IsSegment.isIdle (segment : IsSegment name) : isIdle name.toList = false := by
  refine isIdle_eq_false_iff.mpr ⟨by simpa using segment.some, fun dot => segment.here ?_⟩
  exact String.toList_inj.mp dot

theorem parts_eq (cs : List Char) : parts cs = (body cs).rdropWhile isIdle := rfl

/-- A name starts with nothing that a path can start with. -/
theorem IsSegment.start (segment : IsSegment name) : start name.toList = [] := by
  unfold Path.start
  split
  · next slash => exact absurd (slash ▸ List.mem_cons_self) segment.plain
  · next dot => exact absurd (String.toList_inj.mp dot) segment.here
  · next slash => exact absurd (slash ▸ by simp) segment.plain
  · rfl

/-- A text goes on after its start. -/
theorem start_append_drop (cs : List Char) : start cs ++ cs.drop (start cs).length = cs := by
  unfold start
  split <;> rfl

/-- A `/` behind some text has no part in its start. -/
theorem start_append_slash {before : List Char} (some : before ≠ []) (rest : List Char) :
    start (before ++ '/' :: rest) = start before := by
  -- A start is seen from the first two characters.
  rcases before with _ | ⟨c, _ | ⟨d, more⟩⟩
  · exact absurd rfl some
  all_goals
    unfold start
    split <;> split <;> simp_all

/-- Behind some text, a `/` parts what is on either side. -/
theorem body_append_slash {before : List Char} (some : before ≠ []) (rest : List Char) :
    body (before ++ '/' :: rest) = body before ++ splitOn '/' rest := by
  have whole := start_append_drop before
  unfold body
  rw [start_append_slash some]
  generalize start before = s at whole ⊢
  rw [← whole]
  simp [splitOn_append]

/-- A name that is put below a directory stands alone or after a `/`. -/
theorem join_shape (segment : IsSegment name) (dir : String) :
    (dir = "" ∧ join dir name = name) ∨
      ∃ before, dir ≠ "" ∧ (join dir name).toList = before ++ '/' :: name.toList ∧
        (dir.toList = before ++ ['/'] ∨ dir.toList = before) := by
  have relative : ¬ isAbsolute name = true :=
    fun rooted => segment.plain (List.mem_of_mem_head? (eq_of_beq rooted))
  unfold join
  by_cases empty : dir = ""
  · exact .inl ⟨empty, if_pos (.inr empty)⟩
  rw [if_neg (not_or.mpr ⟨relative, empty⟩)]
  split
  · next slash =>
    obtain ⟨before, ends⟩ := List.getLast?_eq_some_iff.mp slash
    exact .inr ⟨before, empty, by simp [ends], .inl ends⟩
  · exact .inr ⟨dir.toList, empty, by simp, .inr rfl⟩

/-- A name that is put below a path is its last part. Before it are the parts of the path, without
the empty one behind a `/` at the end. -/
theorem body_join (segment : IsSegment name) (dir : String) :
    start (join dir name).toList = start dir.toList ∧
      ∃ front, body (join dir name).toList = front ++ [name.toList] ∧
        (body dir.toList = front ∨ body dir.toList = front ++ [[]]) := by
  have alone : splitOn '/' name.toList = [name.toList] := splitOn_of_not_mem segment.plain
  rcases join_shape segment dir with ⟨rfl, same⟩ | ⟨before, some, chars, ends⟩
  · refine ⟨by rw [same, segment.start]; rfl, [], ?_, .inr rfl⟩
    rw [same, body, segment.start]
    exact alone
  · rw [chars]
    by_cases none : before = []
    · -- What the name is put below is the root.
      subst none
      have root : dir.toList = ['/'] := ends.resolve_right fun empty => some (by simpa using empty)
      exact ⟨by rw [root]; rfl, [], alone, .inr (by rw [root]; rfl)⟩
    · rw [start_append_slash none, body_append_slash none, alone]
      rcases ends with ends | ends
      · rw [ends, start_append_slash none, body_append_slash none]
        exact ⟨rfl, _, rfl, .inr rfl⟩
      · rw [ends]
        exact ⟨rfl, _, rfl, .inl rfl⟩

/-- A path and a name that is put below it have the components of the path and the name. -/
theorem components_join (segment : IsSegment name) (dir : String) :
    components (join dir name) = components dir ++ [name] := by
  obtain ⟨same, front, split, ends⟩ := body_join segment dir
  have kept : (body dir.toList).filter (!isIdle ·) = front.filter (!isIdle ·) := by
    rcases ends with ends | ends
    · rw [ends]
    · rw [ends, List.filter_append]
      exact List.append_nil _
  rw [components, components, same, split, kept, List.filter_append]
  simp [segment.isIdle]

theorem parts_join (segment : IsSegment name) (dir : String) :
    ∃ front, parts (join dir name).toList = front ++ [name.toList] ∧
      front.rdropWhile isIdle = parts dir.toList := by
  obtain ⟨-, front, split, ends⟩ := body_join segment dir
  refine ⟨front, ?_, ?_⟩
  · rw [parts_eq, split, List.rdropWhile_concat_neg _ _ _ (by simp [segment.isIdle])]
  · rw [parts_eq]
    rcases ends with ends | ends
    · rw [ends]
    · rw [ends, List.rdropWhile_concat_pos _ _ _ rfl]

/-- The last part of a path is the name that was put below it. -/
theorem fileName?_join (segment : IsSegment name) (other : name ≠ "..") (dir : String) :
    fileName? (join dir name) = some name := by
  obtain ⟨front, split, -⟩ := parts_join segment dir
  have up : name.toList ≠ ['.', '.'] := fun same => other (String.toList_inj.mp same)
  simp [fileName?, split, up]

theorem folder_join (segment : IsSegment name) (dir : String) :
    folder (join dir name) = trimmed dir := by
  obtain ⟨same, -⟩ := body_join segment dir
  obtain ⟨front, split, ends⟩ := parts_join segment dir
  rw [folder, trimmed, assembled, assembled, split, List.dropLast_concat, ends, same]

/-! ## Paths by their names -/

/-- The last part of a path is not idle. -/
theorem isIdle_of_parts (split : parts cs = above ++ [part]) : isIdle part = false := by
  have tight := List.rdropWhile_idempotent isIdle (body cs)
  rw [← parts_eq, split] at tight
  refine Bool.eq_false_iff.mpr fun idle => ?_
  rw [List.rdropWhile_concat_pos _ _ _ idle] at tight
  have short := (List.rdropWhile_prefix isIdle above).length_le
  rw [tight, List.length_append] at short
  exact Nat.not_succ_le_self _ short

/-- A path that has a name consists of this name and what is above it. -/
theorem parts_of_fileName? (named : fileName? path = some name) :
    parts path.toList = (parts path.toList).dropLast ++ [name.toList] ∧ name ≠ ".." := by
  unfold fileName? at named
  split at named
  · next part last =>
    split at named
    · cases named
    · next up =>
      cases named
      obtain ⟨front, split⟩ := List.getLast?_eq_some_iff.mp last
      refine ⟨by rw [split, List.dropLast_concat, String.toList_ofList], fun same => up ?_⟩
      exact String.toList_ofList.symm.trans (congrArg String.toList same)
  · cases named

theorem parent?_eq_folder (named : fileName? path = some name) :
    parent? path = some (folder path) := by
  obtain ⟨split, -⟩ := parts_of_fileName? named
  rw [folder, assembled, parent?]
  generalize (parts path.toList).dropLast = front at split ⊢
  rw [split, List.reverse_concat]
  rfl

/-! ## Paths put together from parts -/

/-- Parts of a body have no `/`. -/
theorem plain_of_isPrefix (first : ps <+: body cs) : ∀ part ∈ ps, '/' ∉ part :=
  fun _ hpart slash => (mem_of_mem_splitOn (first.subset hpart) slash).2 rfl

theorem start_eq_nil_iff :
    start cs = [] ↔ ¬ ['/'] <+: cs ∧ cs ≠ ['.'] ∧ ¬ ['.', '/'] <+: cs := by
  unfold start
  split
  · simp
  · simp
  · simp
  · next root dot here =>
    refine iff_of_true rfl ⟨?_, dot, ?_⟩
    · rintro ⟨rest, rfl⟩
      exact root rest rfl
    · rintro ⟨rest, rfl⟩
      exact here rest rfl

/-- The first parts of a path, without idle ones at their end, are put behind its start, and
nothing else comes to be a start. -/
theorem start_assembled (first : ps <+: body path.toList) (tight : ps.rdropWhile isIdle = ps) :
    start (assembled path ps).toList = start path.toList := by
  have begins : joinWith '/' ps <+: path.toList.drop (start path.toList).length := by
    have whole : joinWith '/' ps <+: joinWith '/' (body path.toList) := joinWith_isPrefix first
    rwa [body, joinWith_splitOn] at whole
  have other : joinWith '/' ps ≠ ['.'] := by
    -- The only part would be idle, and at the end.
    intro dot
    have some : ps ≠ [] := by
      rintro rfl
      cases dot
    have cut := splitOn_joinWith some (plain_of_isPrefix first)
    rw [dot] at cut
    rw [← cut] at tight
    exact absurd tight (by decide)
  rw [assembled, String.toList_ofList]
  generalize path.toList = cs at begins ⊢
  generalize joinWith '/' ps = text at begins other ⊢
  by_cases none : start cs = []
  · rw [none] at begins ⊢
    obtain ⟨root, -, here⟩ := start_eq_nil_iff.mp none
    exact start_eq_nil_iff.mpr
      ⟨fun h => root (h.trans begins), other, fun h => here (h.trans begins)⟩
  · unfold start at none begins ⊢
    split at none
    · rfl
    · rw [List.prefix_nil.mp begins]
      rfl
    · rcases text with _ | ⟨c, text⟩
      · rfl
      · obtain ⟨rfl, -⟩ := List.cons_prefix_cons.mp begins
        rfl
    · exact absurd rfl none

theorem body_assembled (first : ps <+: body path.toList) (tight : ps.rdropWhile isIdle = ps) :
    body (assembled path ps).toList = if ps = [] then [[]] else ps := by
  rw [body, start_assembled first tight, assembled, String.toList_ofList, List.drop_left]
  split
  · next none =>
    rw [none]
    rfl
  · next some => exact splitOn_joinWith some (plain_of_isPrefix first)

theorem trimmed_assembled (first : ps <+: body path.toList) (tight : ps.rdropWhile isIdle = ps) :
    trimmed (assembled path ps) = assembled path ps := by
  have same : parts (assembled path ps).toList = ps := by
    rw [parts_eq, body_assembled first tight]
    split
    · next none =>
      rw [none]
      rfl
    · exact tight
  rw [trimmed, same]
  unfold assembled
  exact congrArg (fun s => String.ofList (s ++ joinWith '/' ps)) (start_assembled first tight)

/-- The body has these parts, and where there are none it is one empty part. -/
theorem filter_body_assembled {keep : List Char → Bool} (empty : keep [] = false)
    (first : ps <+: body path.toList) (tight : ps.rdropWhile isIdle = ps) :
    (body (assembled path ps).toList).filter keep = ps.filter keep := by
  rw [body_assembled first tight]
  split
  · next none => simp [none, empty]
  · rfl

theorem components_assembled (first : ps <+: body path.toList)
    (tight : ps.rdropWhile isIdle = ps) : components (assembled path ps) =
      ([start path.toList].filter (· ≠ []) ++ ps.filter (!isIdle ·)).map String.ofList := by
  rw [components, start_assembled first tight, filter_body_assembled rfl first tight]

/-- Idle parts at the end are idle parts. -/
theorem filter_rdropWhile (ps : List (List Char)) :
    (ps.rdropWhile isIdle).filter (!isIdle ·) = ps.filter (!isIdle ·) := by
  have idle : (ps.rtakeWhile isIdle).filter (!isIdle ·) = [] :=
    List.filter_eq_nil_iff.mpr fun part hpart => by simp [List.mem_rtakeWhile_imp hpart]
  calc (ps.rdropWhile isIdle).filter (!isIdle ·)
      = (ps.rdropWhile isIdle ++ ps.rtakeWhile isIdle).filter (!isIdle ·) := by
        rw [List.filter_append, idle, List.append_nil]
    _ = ps.filter (!isIdle ·) := by rw [List.rdropWhile_append_rtakeWhile]

theorem start_trimmed (path : String) : start (trimmed path).toList = start path.toList :=
  start_assembled (List.rdropWhile_prefix ..) (List.rdropWhile_idempotent ..)

theorem filter_body_trimmed {keep : List Char → Bool} (empty : keep [] = false) (path : String) :
    (body (trimmed path).toList).filter keep = (parts path.toList).filter keep :=
  filter_body_assembled empty (List.rdropWhile_prefix ..) (List.rdropWhile_idempotent ..)

theorem folder_isPrefix (path : String) :
    (parts path.toList).dropLast.rdropWhile isIdle <+: body path.toList :=
  (List.rdropWhile_prefix ..).trans ((List.dropLast_prefix _).trans (List.rdropWhile_prefix ..))

theorem trimmed_folder (path : String) : trimmed (folder path) = folder path :=
  trimmed_assembled (folder_isPrefix path) (List.rdropWhile_idempotent ..)

/-- A path that has a name has the components of the path above and this name. -/
theorem components_eq_folder (named : fileName? path = some name) :
    components path = components (folder path) ++ [name] := by
  obtain ⟨split, -⟩ := parts_of_fileName? named
  have solid := isIdle_of_parts split
  rw [folder, components_assembled (folder_isPrefix path) (List.rdropWhile_idempotent ..),
    filter_rdropWhile, components, ← filter_rdropWhile (body path.toList), ← parts_eq, split]
  simp [solid]

/-! ## Names at their last dot -/

/-- A name is cut at a dot that has something before it and no dot behind it. -/
theorem cutAtDot_eq_some_iff {stem last : List Char} :
    cutAtDot cs = (stem, some last) ↔ stem ≠ [] ∧ cs = stem ++ '.' :: last ∧ '.' ∉ last := by
  constructor
  · intro cut
    unfold cutAtDot at cut
    split at cut
    · next tail before more split =>
      dsimp only at cut
      split at cut
      · cases cut
      · next some =>
        have whole := joinWith_splitOn '.' cs
        cases cut
        rw [← List.reverse_reverse (splitOn '.' cs), split, List.reverse_cons,
          joinWith_concat (by simp)] at whole
        refine ⟨some, whole.symm, fun dot => ?_⟩
        have part : last ∈ splitOn '.' cs := by
          rw [← List.mem_reverse, split]
          exact List.mem_cons_self
        exact (mem_of_mem_splitOn part dot).2 rfl
    · cases cut
  · rintro ⟨some, rfl, plain⟩
    obtain ⟨front, before, split⟩ : ∃ front before, splitOn '.' stem = front ++ [before] :=
      ⟨_, _, (List.dropLast_concat_getLast (splitOn_ne_nil '.' stem)).symm⟩
    have whole := joinWith_splitOn '.' stem
    rw [split] at whole
    rw [cutAtDot, splitOn_append, splitOn_of_not_mem plain, split]
    simp [whole, some]

/-- What a path has for an extension is what its name has. -/
theorem extension?_eq_some_iff {extension : String} (named : fileName? path = some name) :
    extension? path = some extension ↔ HasExtension name extension := by
  simp only [extension?, named, Option.bind_some, Option.map_eq_some_iff]
  constructor
  · rintro ⟨last, cut, rfl⟩
    obtain ⟨some, whole, plain⟩ := cutAtDot_eq_some_iff.mp (Prod.ext rfl cut)
    exact ⟨_, some, by rwa [String.toList_ofList], by rwa [String.toList_ofList]⟩
  · rintro ⟨stem, some, whole, plain⟩
    exact ⟨_, congrArg Prod.snd (cutAtDot_eq_some_iff.mpr ⟨some, whole, plain⟩),
      String.ofList_toList⟩

/-- The name of a path that has an extension is its stem, a dot and the extension. -/
theorem stem_of_extension? {extension : String} (ends : extension? path = some extension) :
    ∃ stem, stem ≠ "" ∧ stem? path = some stem ∧
      fileName? path = some (stem ++ "." ++ extension) := by
  obtain ⟨name, named, -⟩ := Option.bind_eq_some_iff.mp ends
  obtain ⟨stem, some, whole, plain⟩ := (extension?_eq_some_iff named).mp ends
  have cut := cutAtDot_eq_some_iff.mpr ⟨some, whole, plain⟩
  refine ⟨String.ofList stem, by simpa using some, by simp [stem?, named, cut], ?_⟩
  rw [named]
  refine congrArg _ (String.toList_inj.mp ?_)
  simp [whole]

/-- A name in a path has no `/`. -/
theorem isSegment_of_fileName? (named : fileName? path = some name) : IsSegment name := by
  obtain ⟨split, -⟩ := parts_of_fileName? named
  obtain ⟨some, here⟩ := isIdle_eq_false_iff.mp (isIdle_of_parts split)
  refine ⟨by simpa using some, fun dot => here (by rw [dot]; rfl), ?_⟩
  have mem : name.toList ∈ parts path.toList := by
    rw [split]
    simp
  exact plain_of_isPrefix (List.rdropWhile_prefix ..) _ mem

end parts

/-! ## Order -/

section order

variable {p q : String}

theorem Before.asymm (before : Before p q) : ¬ Before q p :=
  List.lt_asymm before

theorem Before.components_ne (before : Before p q) : components p ≠ components q := by
  intro same
  rw [Before, same] at before
  exact List.lt_irrefl _ before

/-- Paths that go on with different names are ordered as the names are. -/
theorem before_of_lt {a b : String} {common more others : List String} (less : a < b)
    (hp : components p = common ++ a :: more) (hq : components q = common ++ b :: others) :
    Before p q := by
  rw [Before, hp, hq, List.map_append, List.map_append, List.map_cons, List.map_cons]
  exact List.append_left_lt (List.cons_lt_cons_iff.mpr (.inl (Utf8.bytesOf_lt_bytesOf less)))

end order

end PluginHost.Path
