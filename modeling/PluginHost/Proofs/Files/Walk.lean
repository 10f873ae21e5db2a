import Mathlib.Data.String.Basic
import PluginHost.Files.Walk
import PluginHost.Proofs.Files.Entries

/-!
# What a walk comes to

A walk through a tree lists its files, each once, with the path that leads to it. It visits a
directory by the names of its entries, and what is below an entry before the next one, so paths go
up when they are compared component by component. If a file is taken away, the walk lists the
others as before.

* `Node.Proper` are the trees that file systems hold.

Results:
1. `Node.mem_filesAt`: the paths that are listed are those that lead to files.
2. `Node.filesAt_ordered` and `candidates_ordered`: what is listed goes up, so no path is listed
   twice.
3. `Node.filesAt_cut`: what is listed after a file is taken away.
4. `filesBelow_cases`, `filesBelow_of_dir` and `candidates_of_absent`: where a walk starts.
5. `resolve_of_mem_filesBelow`: a path that is listed denotes its file.
-/

namespace PluginHost.Files

/-! ## Definitions -/

/-- A tree as file systems have them: in each directory the entries have names that entries can
have, and no two of them have the same. -/
inductive Node.Proper : Node → Prop
  | file (data : List UInt8) : Proper (.file data)
  | link (target : String) : Proper (.link target)
  | dir {entries : List (String × Node)} (distinct : (entries.map (·.1)).Nodup)
      (names : ∀ e ∈ entries, IsName e.1) (below : ∀ e ∈ entries, Proper e.2) :
      Proper (.dir entries)

/-! ## Entries in order -/

section sort

variable {α β : Type} {name : String} {x : α} {l : List (String × α)}

theorem insertByName_perm (name : String) (x : α) (l : List (String × α)) :
    (insertByName name x l).Perm ((name, x) :: l) := by
  induction l with
  | nil => exact .refl _
  | cons e rest ih =>
    rw [insertByName]
    split
    · exact .refl _
    · exact (ih.cons e).trans (.swap ..)

theorem sortByName_perm (l : List (String × α)) : (sortByName l).Perm l := by
  induction l with
  | nil => exact .refl _
  | cons e rest ih => exact (insertByName_perm e.1 e.2 _).trans (ih.cons e)

/-- The names go up. -/
def Ascending (l : List (String × α)) : Prop :=
  l.Pairwise fun a b => a.1 ≤ b.1

theorem insertByName_ascending (name : String) (x : α) (up : Ascending l) :
    Ascending (insertByName name x l) := by
  induction l with
  | nil => exact List.pairwise_singleton ..
  | cons e rest ih =>
    obtain ⟨least, others⟩ := List.pairwise_cons.mp up
    rw [insertByName]
    split
    · next before =>
      refine List.pairwise_cons.mpr ⟨fun a ha => ?_, up⟩
      rcases List.mem_cons.mp ha with rfl | ha
      · exact before.le
      · exact before.le.trans (least a ha)
    · next after =>
      refine List.pairwise_cons.mpr ⟨fun a ha => ?_, ih others⟩
      rcases List.mem_cons.mp ((insertByName_perm name x rest).mem_iff.mp ha) with rfl | ha
      · exact not_lt.mp after
      · exact least a ha

theorem sortByName_ascending (l : List (String × α)) : Ascending (sortByName l) := by
  induction l with
  | nil => exact List.Pairwise.nil
  | cons e rest ih => exact insertByName_ascending e.1 e.2 ih

/-- An entry that is left out does not matter to an insertion. -/
theorem filter_insertByName (keep : String × α → Bool) (kept : keep (name, x) = true)
    (up : Ascending l) :
    (insertByName name x l).filter keep = insertByName name x (l.filter keep) := by
  induction l with
  | nil => simp [insertByName, kept]
  | cons e rest ih =>
    obtain ⟨least, others⟩ := List.pairwise_cons.mp up
    rw [insertByName]
    by_cases before : name < e.1
    · -- The new entry comes before all others, whichever of them stay.
      have first : ∀ a ∈ (e :: rest).filter keep, name < a.1 := by
        intro a ha
        rcases List.mem_cons.mp (List.mem_filter.mp ha).1 with rfl | ha
        · exact before
        · exact before.trans_le (least a ha)
      rw [if_pos before, List.filter_cons_of_pos kept]
      cases stay : (e :: rest).filter keep with
      | nil => rfl
      | cons a more =>
        rw [stay] at first
        rw [insertByName, if_pos (first a List.mem_cons_self)]
    · rw [if_neg before]
      cases keeps : keep e with
      | true =>
        rw [List.filter_cons_of_pos keeps, List.filter_cons_of_pos keeps, insertByName,
          if_neg before, ih others]
      | false =>
        have goes : ¬ keep e = true := by simp [keeps]
        rw [List.filter_cons_of_neg goes, List.filter_cons_of_neg goes, ih others]

theorem filter_insertByName_of_neg (keep : String × α → Bool) (goes : ¬ keep (name, x) = true) :
    (insertByName name x l).filter keep = l.filter keep := by
  induction l with
  | nil => exact List.filter_cons_of_neg goes
  | cons e rest ih =>
    rw [insertByName]
    split
    · exact List.filter_cons_of_neg goes
    · rw [List.filter_cons, List.filter_cons, ih]

/-- The entries that stay are in the same order. -/
theorem sortByName_filter (keep : String × α → Bool) (l : List (String × α)) :
    sortByName (l.filter keep) = (sortByName l).filter keep := by
  induction l with
  | nil => rfl
  | cons e rest ih =>
    have sorted : sortByName (e :: rest) = insertByName e.1 e.2 (sortByName rest) := rfl
    by_cases keeps : keep e = true
    · rw [List.filter_cons_of_pos keeps, sorted,
        filter_insertByName keep keeps (sortByName_ascending rest), ← ih]
      rfl
    · rw [List.filter_cons_of_neg keeps, sorted, filter_insertByName_of_neg keep keeps, ih]

/-- Entries may be left out of which nothing comes. -/
theorem flatMap_filter {γ : Type} {keep : α → Bool} {f g : α → List γ} {l : List α}
    (kept : ∀ e ∈ l, keep e = true → f e = g e) (gone : ∀ e ∈ l, keep e = false → g e = []) :
    (l.filter keep).flatMap f = l.flatMap g := by
  induction l with
  | nil => rfl
  | cons e rest ih =>
    have others := ih (fun a ha => kept a (List.mem_cons_of_mem _ ha))
      fun a ha => gone a (List.mem_cons_of_mem _ ha)
    cases keeps : keep e with
    | true =>
      rw [List.filter_cons_of_pos keeps, List.flatMap_cons, List.flatMap_cons, others,
        kept e List.mem_cons_self keeps]
    | false =>
      rw [List.filter_cons_of_neg (by simp [keeps]), List.flatMap_cons, others,
        gone e List.mem_cons_self keeps, List.nil_append]

/-- The order has to do with names alone. -/
theorem sortByName_map (f : String × α → β) (l : List (String × α)) :
    sortByName (l.map fun e => (e.1, f e)) = (sortByName l).map fun e => (e.1, f e) := by
  have inserted (e : String × α) (l : List (String × α)) :
      insertByName e.1 (f e) (l.map fun e => (e.1, f e)) =
        (insertByName e.1 e.2 l).map fun e => (e.1, f e) := by
    induction l with
    | nil => rfl
    | cons e' rest ih =>
      rw [List.map_cons, insertByName, insertByName]
      split
      · rfl
      · rw [ih, List.map_cons]
  induction l with
  | nil => rfl
  | cons e rest ih => exact (congrArg (insertByName e.1 (f e)) ih).trans (inserted e _)

end sort

/-! ## Entries by name -/

section entries

variable {entries : List (String × Node)} {name : String} {node n : Node} {names : List String}

theorem mem_of_find? (found : find? name entries = some node) : (name, node) ∈ entries := by
  induction entries with
  | nil => cases found
  | cons e rest ih =>
    rw [find?] at found
    split at found
    · next same => exact Option.some.inj found ▸ same ▸ List.mem_cons_self
    · exact List.mem_cons_of_mem _ (ih found)

/-- Where names differ, each entry is found under its own. -/
theorem find?_of_mem (distinct : (entries.map (·.1)).Nodup) (mem : (name, node) ∈ entries) :
    find? name entries = some node := by
  induction entries with
  | nil => cases mem
  | cons e rest ih =>
    obtain ⟨fresh, others⟩ := List.nodup_cons.mp distinct
    rw [find?]
    rcases List.mem_cons.mp mem with rfl | there
    · exact if_pos rfl
    · have apart : e.1 ≠ name := fun same => fresh (List.mem_map.mpr ⟨_, there, same.symm⟩)
      rw [if_neg apart, ih others there]

/-- Setting an entry that is there changes its node and nothing else. -/
theorem set_eq_map (distinct : (entries.map (·.1)).Nodup) (found : find? name entries = some node)
    (n : Node) :
    set name n entries = entries.map fun e => (e.1, if e.1 = name then n else e.2) := by
  induction entries with
  | nil => cases found
  | cons e rest ih =>
    obtain ⟨fresh, others⟩ := List.nodup_cons.mp distinct
    rw [find?] at found
    rw [set, List.map_cons]
    by_cases same : e.1 = name
    · have kept : (rest.map fun e => (e.1, if e.1 = name then n else e.2)) = rest := by
        refine (List.map_congr_left fun a ha => ?_).trans (List.map_id rest)
        have apart : a.1 ≠ name := fun also =>
          fresh (List.mem_map.mpr ⟨a, ha, also.trans same.symm⟩)
        rw [if_neg apart]
        rfl
      rw [if_pos same, if_pos same, kept]
    · rw [if_neg same] at found
      rw [if_neg same, if_neg same, ih others found]

namespace Node

theorem Proper.at? (proper : n.Proper) (there : n.at? names = some node) :
    (∀ name ∈ names, IsName name) ∧ node.Proper := by
  induction names generalizing n with
  | nil =>
    obtain rfl := Option.some.inj (n.at?_nil.symm.trans there)
    exact ⟨by simp, proper⟩
  | cons name rest ih =>
    obtain ⟨entries, next, rfl, found, there⟩ := Node.at?_cons_iff.mp there
    cases proper with
    | dir distinct isName below =>
      have mem := mem_of_find? found
      obtain ⟨others, last⟩ := ih (below _ mem) there
      exact ⟨List.forall_mem_cons.mpr ⟨isName _ mem, others⟩, last⟩

/-- A proper tree stays proper when an entry is taken away. -/
theorem Proper.cut (proper : n.Proper) (loc : List String) : (n.cut loc).Proper := by
  induction loc generalizing n with
  | nil => cases proper <;> constructor <;> assumption
  | cons name rest ih =>
    cases proper with
    | file data => exact .file data
    | link target => exact .link target
    | @dir entries distinct isName below =>
      cases rest with
      | nil =>
        have fewer : (unset name entries).Sublist entries := List.filter_sublist
        exact .dir (distinct.sublist (fewer.map _)) (fun e he => isName e (fewer.subset he))
          fun e he => below e (fewer.subset he)
      | cons next more =>
        cases found : find? name entries with
        | none => simpa [Node.cut, found] using Proper.dir distinct isName below
        | some node =>
          have inner := ih (below _ (mem_of_find? found))
          simp only [Node.cut, found, set_eq_map distinct found]
          refine .dir (by rw [List.map_map]; exact distinct) ?_ ?_
          · intro e he
            obtain ⟨a, ha, rfl⟩ := List.mem_map.mp he
            exact isName a ha
          · intro e he
            obtain ⟨a, ha, rfl⟩ := List.mem_map.mp he
            dsimp only
            split
            · exact inner
            · exact below a ha

end Node

end entries

/-! ## Walks -/

namespace Node

variable {n : Node} {entries : List (String × Node)} {path name q : String}
  {names : List String} {data : List UInt8}

/-- The files of a directory are those of its entries, in the order of names. -/
theorem filesAt_dir (path : String) (entries : List (String × Node)) :
    (Node.dir entries).filesAt path =
      (sortByName entries).flatMap fun e => e.2.filesAt (Path.join path e.1) := by
  have each : filesOfEntries path entries =
      entries.map fun e => (e.1, e.2.filesAt (Path.join path e.1)) := by
    induction entries with
    | nil => rfl
    | cons e rest ih => rw [filesOfEntries, ih, List.map_cons]
  rw [filesAt, each, sortByName_map, List.flatMap_map]

/-- The paths that are listed are those that lead to files. -/
theorem mem_filesAt (proper : n.Proper) :
    q ∈ n.filesAt path ↔ ∃ names data, n.at? names = some (.file data) ∧ q = below path names := by
  induction proper generalizing path with
  | file data =>
    rw [filesAt, List.mem_singleton]
    constructor
    · rintro rfl
      exact ⟨[], data, rfl, rfl⟩
    · rintro ⟨names, data', there, rfl⟩
      cases names with
      | nil => rfl
      | cons _ _ => cases there
  | link target =>
    rw [filesAt]
    constructor
    · exact fun none => absurd none List.not_mem_nil
    · rintro ⟨names, data, there, -⟩
      cases names <;> cases there
  | @dir entries distinct _ _ ih =>
    simp only [filesAt_dir, List.mem_flatMap, (sortByName_perm entries).mem_iff]
    constructor
    · rintro ⟨e, he, mem⟩
      obtain ⟨names, data, there, rfl⟩ := (ih e he).mp mem
      exact ⟨e.1 :: names, data,
        at?_dir_cons_iff.mpr ⟨e.2, find?_of_mem distinct he, there⟩, rfl⟩
    · rintro ⟨names, data, there, rfl⟩
      cases names with
      | nil => cases there
      | cons name rest =>
        obtain ⟨next, found, there⟩ := at?_dir_cons_iff.mp there
        have mem := mem_of_find? found
        exact ⟨_, mem, (ih _ mem).mpr ⟨rest, data, there, rfl⟩⟩

/-- A path that is listed below an entry tells the name of the entry. -/
theorem components_of_mem_filesAt (proper : n.Proper) (isName : IsName name)
    (mem : q ∈ n.filesAt (Path.join path name)) :
    ∃ more, Path.components q = Path.components path ++ name :: more := by
  obtain ⟨names, data, there, rfl⟩ := (mem_filesAt proper).mp mem
  refine ⟨names, ?_⟩
  rw [components_below (proper.at? there).1, Path.components_join isName.isSegment,
    List.append_assoc, List.singleton_append]

/-- What a walk lists goes up: below one entry by induction, and from one entry to the next as
their names do. -/
theorem filesAt_ordered (proper : n.Proper) : (n.filesAt path).Pairwise Path.Before := by
  induction proper generalizing path with
  | file data => exact List.pairwise_singleton ..
  | link target => exact List.Pairwise.nil
  | @dir entries distinct isName below ih =>
    have perm := sortByName_perm entries
    have differ : (sortByName entries).Pairwise fun a b => a.1 ≠ b.1 :=
      List.pairwise_map.mp ((perm.map _).nodup_iff.mpr distinct)
    have up : (sortByName entries).Pairwise fun a b => a.1 < b.1 :=
      (sortByName_ascending entries).imp₂ (fun _ _ le ne => lt_of_le_of_ne le ne) differ
    rw [filesAt_dir, List.pairwise_flatMap]
    refine ⟨fun e he => ih e (perm.mem_iff.mp he), up.imp_of_mem fun {a b} ha hb less => ?_⟩
    have ha := perm.mem_iff.mp ha
    have hb := perm.mem_iff.mp hb
    intro p hp q hq
    obtain ⟨_, first⟩ := components_of_mem_filesAt (below a ha) (isName a ha) hp
    obtain ⟨_, second⟩ := components_of_mem_filesAt (below b hb) (isName b hb) hq
    exact Path.before_of_lt less first second

/-- When a file is taken away, its path is not listed any more, and that is all. -/
theorem filesAt_cut (proper : n.Proper) (some : names ≠ [])
    (there : n.at? names = .some (.file data)) :
    (n.cut names).filesAt path = (n.filesAt path).filter (· ≠ below path names) := by
  induction names generalizing n path with
  | nil => exact absurd rfl some
  | cons name rest ih =>
    obtain ⟨entries, node, rfl, found, there⟩ := at?_cons_iff.mp there
    cases proper with
    | dir distinct isName below =>
      have here := mem_of_find? found
      have inside := below _ here
      have deeper := (inside.at? there).1
      -- The path is listed below no other entry.
      have others : ∀ e ∈ entries, e.1 ≠ name → (e.2.filesAt (Path.join path e.1)).filter
          (· ≠ Files.below path (name :: rest)) = e.2.filesAt (Path.join path e.1) := by
        intro e he differ
        refine List.filter_eq_self.mpr fun q hq => decide_eq_true ?_
        rintro rfl
        obtain ⟨more, names⟩ := components_of_mem_filesAt (below e he) (isName e he) hq
        rw [below_cons, components_below deeper, Path.components_join (isName _ here).isSegment,
          List.append_assoc, List.singleton_append] at names
        exact differ (List.cons.inj (List.append_cancel_left names)).1.symm
      rw [filesAt_dir path entries, List.filter_flatMap]
      cases rest with
      | nil =>
        have file : node = .file data := Option.some.inj (node.at?_nil.symm.trans there)
        rw [Node.cut, filesAt_dir, unset, sortByName_filter]
        refine flatMap_filter (fun e he stays => ?_) fun e he goes => ?_
        all_goals have mem := (sortByName_perm entries).mem_iff.mp he
        · exact (others e mem (by simpa using stays)).symm
        · obtain rfl : e.1 = name := by simpa using goes
          have node' : e.2 = node := Option.some.inj ((find?_of_mem distinct mem).symm.trans found)
          rw [node', file]
          simp [filesAt, below_cons]
      | cons next more =>
        simp only [Node.cut, found, set_eq_map distinct found]
        rw [filesAt_dir, sortByName_map, List.flatMap_map]
        refine List.flatMap_congr fun e he => ?_
        have mem := (sortByName_perm entries).mem_iff.mp he
        by_cases same : e.1 = name
        · have node' : e.2 = node :=
            Option.some.inj ((find?_of_mem distinct (same ▸ mem)).symm.trans found)
          simp only [↓reduceIte, node', same]
          exact ih inside (by simp) there
        · simp only [if_neg same]
          exact (others e mem same).symm

end Node

/-! ## Where a walk starts -/

section start

variable {root : Node} {fs : Files} {dir q : String} {loc : List String}
  {entries : List (String × Node)}

/-- A directory is walked through, whether it is given by a link or not. -/
theorem filesBelow_of_dir (directory : fs.node true dir = .ok (.dir entries)) :
    fs.filesBelow dir = (Node.dir entries).filesAt dir := by
  unfold filesBelow
  rcases node_unfollowed directory with same | ⟨target, link⟩
  · rw [same]
  · rw [link, directory]

theorem isDir_iff : fs.isDir dir = true ↔ ∃ entries, fs.node true dir = .ok (.dir entries) := by
  unfold isDir
  cases fs.node true dir with
  | error f => simp
  | ok n => cases n <;> simp [Node.isDir]

/-- A file that is listed below a directory is where its names lead, if its path is not too
long. -/
theorem resolve_of_mem_filesBelow (proper : fs.root.Proper)
    (directory : fs.resolve true dir = .ok (.found loc (.dir entries)))
    (listed : q ∈ fs.filesBelow dir) : ∃ names data, names ≠ [] ∧ q = below dir names ∧
      (Node.dir entries).at? names = some (.file data) ∧ (q.utf8ByteSize ≤ pathLimit →
        ∀ follow, fs.resolve follow q = .ok (.found (loc ++ names) (.file data))) := by
  have properDir := (proper.at? (at?_of_resolve directory)).2
  rw [filesBelow_of_dir (node_eq_ok_iff.mpr ⟨loc, directory⟩), Node.mem_filesAt properDir] at listed
  obtain ⟨names, data, there, rfl⟩ := listed
  have some : names ≠ [] := by
    rintro rfl
    cases there
  refine ⟨names, data, some, rfl, there, fun short follow => ?_⟩
  exact resolve_below (properDir.at? there).1 some short (resolve_orHere directory) there (by simp)

/-- What is listed comes of a walk through what the path denotes, if anything is. -/
theorem filesBelow_cases (fs : Files) (dir : String) : fs.filesBelow dir = [] ∨
    ∃ n, fs.node true dir = .ok n ∧ fs.filesBelow dir = n.filesAt dir := by
  unfold filesBelow
  split
  · exact .inl rfl
  · split
    · next found => exact .inr ⟨_, found, rfl⟩
    · exact .inl rfl
  · next plain found => exact .inr ⟨_, node_followed found plain, rfl⟩

/-- Where nothing is, there are no candidates. -/
theorem candidates_of_absent (absent : fs.present dir = false) (extension : String) :
    fs.candidates dir extension = [] := by
  rcases fs.filesBelow_cases dir with none | ⟨n, found, -⟩
  · rw [candidates, none, List.filter_nil]
  · simp [present, found, Except.toOption] at absent

theorem candidates_ordered (proper : fs.root.Proper) (dir extension : String) :
    (fs.candidates dir extension).Pairwise Path.Before := by
  refine List.Pairwise.filter _ ?_
  rcases fs.filesBelow_cases dir with none | ⟨n, found, listed⟩
  · rw [none]
    exact List.Pairwise.nil
  · obtain ⟨loc, found⟩ := node_eq_ok_iff.mp found
    rw [listed]
    exact Node.filesAt_ordered (proper.at? (at?_of_resolve found)).2

/-- No candidate is listed twice. -/
theorem nodup_candidates (proper : fs.root.Proper) (dir extension : String) :
    (fs.candidates dir extension).Nodup :=
  (candidates_ordered proper dir extension).imp fun before same =>
    before.components_ne (congrArg Path.components same)

/-- Candidates that differ do so by their components. -/
theorem components_ne {p : String} {extension : String} (proper : fs.root.Proper)
    (hp : p ∈ fs.candidates dir extension) (hq : q ∈ fs.candidates dir extension)
    (differ : p ≠ q) : Path.components p ≠ Path.components q := by
  have : Std.Symm fun a b : String => Path.components a ≠ Path.components b :=
    ⟨fun _ _ => Ne.symm⟩
  have apart : (fs.candidates dir extension).Pairwise fun a b =>
      Path.components a ≠ Path.components b :=
    (candidates_ordered proper dir extension).imp Path.Before.components_ne
  exact apart.forall hp hq differ

end start

end PluginHost.Files
