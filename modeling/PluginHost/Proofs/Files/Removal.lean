import PluginHost.Proofs.Files.Walk

/-!
# Files that are taken away

When a file is removed, all other paths that denote something denote it still: files with their
bytes, links with their targets, and directories, though an entry may be missing in them. So a
walk through a directory from which files are removed lists the others, and they can be read as
before.

* `Node.Remains` says what may become of a node while a file is removed.
* `Without` is what some files are without others.

Results:
1. `Way.remains` and `resolve_remains`: what is found elsewhere is still found.
2. `without_of_remove`: one file of a directory is removed.
3. `without_of_removeEach`: several are.
-/

namespace PluginHost.Files

/-! ## Definitions -/

/-- The files after some entries are removed, one after the other. -/
def removeEach (fs : Files) : List String → Except Fault Files
  | [] => .ok fs
  | path :: rest =>
    match fs.remove path with
    | .ok fs => fs.removeEach rest
    | .error f => .error f

/-- What becomes of a node while entries are removed: nothing, or a directory has lost some. -/
inductive Node.Remains : Node → Node → Prop
  | same (n : Node) : Remains n n
  | dir (entries others : List (String × Node)) : Remains (.dir entries) (.dir others)

/-- The files `fs'` are `fs` without some that were in a directory.

* `proper` and `directory`: the tree is as file systems have them, and the directory is there.
* `listed`: a walk lists the others, in the same order.
* `others`: these denote the same. -/
structure Without (fs : Files) (dir : String) (gone : List String) (fs' : Files) : Prop where
  proper : fs'.root.Proper
  directory : fs'.isDir dir = true
  listed : fs'.filesBelow dir = (fs.filesBelow dir).filter (· ∉ gone)
  others : ∀ q ∈ fs.filesBelow dir, q ∉ gone → fs'.node true q = fs.node true q

/-! ## Trees -/

theorem find?_set (name other : String) (node : Node) (entries : List (String × Node)) :
    find? other (set name node entries) =
      if name = other then some node else find? other entries := by
  induction entries with
  | nil => rfl
  | cons e rest ih =>
    rw [set]
    by_cases same : e.1 = name
    · rw [if_pos same, find?, find?, same]
      split <;> rfl
    · rw [if_neg same, find?, find?, ih]
      by_cases first : e.1 = other
      · rw [if_pos first, if_pos first, if_neg fun also => same (first.trans also.symm)]
      · rw [if_neg first, if_neg first]

theorem find?_unset {name other : String} (differ : name ≠ other)
    (entries : List (String × Node)) : find? other (unset name entries) = find? other entries := by
  induction entries with
  | nil => rfl
  | cons e rest ih =>
    unfold unset at ih ⊢
    rw [find?]
    by_cases same : e.1 = name
    · rw [List.filter_cons_of_neg (by simp [same]), ih, if_neg (same ▸ differ)]
    · rw [List.filter_cons_of_pos (by simpa using same), find?, ih]

namespace Node

variable {n m : Node} {loc other names : List String} {data : List UInt8}
  {entries : List (String × Node)}

theorem Remains.dir_inv {m : Node} (remains : (Node.dir entries).Remains m) :
    ∃ others, m = .dir others := by
  cases remains with
  | same => exact ⟨entries, rfl⟩
  | dir _ others => exact ⟨others, rfl⟩

/-- A node above the entry that is removed loses it. -/
theorem at?_cut_above (there : n.at? loc = some m) (more : names ≠ []) :
    (n.cut (loc ++ names)).at? loc = some (m.cut names) := by
  induction loc generalizing n with
  | nil =>
    obtain rfl := Option.some.inj (n.at?_nil.symm.trans there)
    exact at?_nil _
  | cons name rest ih =>
    obtain ⟨entries, node, rfl, found, there⟩ := at?_cons_iff.mp there
    have inner := ih there
    obtain ⟨next, others, long⟩ := List.exists_cons_of_ne_nil
      (mt List.append_eq_nil_iff.mp (not_and_of_not_right (rest = []) more))
    rw [long] at inner
    rw [List.cons_append, long]
    simp only [cut, found, at?, find?_set, ↓reduceIte]
    exact inner

/-- A node elsewhere than the file that is removed is still there. -/
theorem at?_cut_other (file : n.at? loc = some (.file data)) (there : n.at? other = some m)
    (differ : other ≠ loc) : ∃ m', (n.cut loc).at? other = some m' ∧ m.Remains m' := by
  induction loc generalizing n other with
  | nil =>
    obtain rfl := Option.some.inj (n.at?_nil.symm.trans file)
    cases other with
    | nil => exact absurd rfl differ
    | cons _ _ => cases there
  | cons name rest ih =>
    obtain ⟨entries, node, rfl, found, file⟩ := at?_cons_iff.mp file
    cases other with
    | nil =>
      cases Option.some.inj there
      cases rest <;> simp only [cut, found] <;> exact ⟨_, rfl, .dir _ _⟩
    | cons first more =>
      by_cases same : name = first
      · subst same
        obtain ⟨_, found', there⟩ := at?_dir_cons_iff.mp there
        cases found.symm.trans found'
        cases rest with
        | nil =>
          -- It is the file itself, and below it is nothing.
          obtain rfl := Option.some.inj (node.at?_nil.symm.trans file)
          cases more with
          | nil => exact absurd rfl differ
          | cons _ _ => cases there
        | cons next rest =>
          simp only [cut, found, at?, find?_set, ↓reduceIte]
          exact ih file there fun also => differ (by rw [also])
      · rw [at?] at there
        refine ⟨m, ?_, .same m⟩
        cases rest with
        | nil => rwa [cut, at?, find?_unset same]
        | cons next rest =>
          simp only [cut, found, at?, find?_set, if_neg same]
          exact there

end Node

/-! ## Ways -/

section ways

variable {root root' n : Node} {follow : Bool} {loc gone : List String} {data : List UInt8}

/-- A way that leads elsewhere than to some files still leads there, if all else remains. -/
theorem Way.remains {budget : Nat} {here parts : List String} {gone : List String → Prop}
    (files : ∀ loc, gone loc → ∃ data, root.at? loc = some (.file data))
    (kept : ∀ loc m, root.at? loc = some m → ¬gone loc →
      ∃ m', root'.at? loc = some m' ∧ m.Remains m')
    (way : Way root follow budget here parts loc n) (other : ¬gone loc) :
    ∃ n', Way root' follow budget here parts loc n' ∧ n.Remains n' := by
  -- Directories and links are none of the files, so a way goes through them as before.
  have leaf {loc : List String} {m : Node} (there : root.at? loc = some m)
      (noFile : ∀ data, m ≠ .file data) : ¬gone loc := by
    intro goes
    obtain ⟨data, file⟩ := files loc goes
    exact noFile data (Option.some.inj (there.symm.trans file))
  have dir {loc : List String} {entries : List (String × Node)}
      (there : root.at? loc = some (.dir entries)) :
      ∃ entries', root'.at? loc = some (.dir entries') := by
    obtain ⟨_, there', remains⟩ := kept _ _ there (leaf there (by simp))
    obtain ⟨entries', rfl⟩ := remains.dir_inv
    exact ⟨entries', there'⟩
  have link {loc : List String} {target : String}
      (there : root.at? loc = some (.link target)) : root'.at? loc = some (.link target) := by
    obtain ⟨_, there', remains⟩ := kept _ _ there (leaf there (by simp))
    cases remains
    exact there'
  induction way with
  | ends there =>
    obtain ⟨n', there', remains⟩ := kept _ _ there other
    exact ⟨n', .ends there', remains⟩
  | here directory _ ih =>
    obtain ⟨_, directory'⟩ := dir directory
    obtain ⟨n', onward', remains⟩ := ih other
    exact ⟨n', .here directory' onward', remains⟩
  | above directory _ ih =>
    obtain ⟨_, directory'⟩ := dir directory
    obtain ⟨n', onward', remains⟩ := ih other
    exact ⟨n', .above directory' onward', remains⟩
  | @entry _ here _ _ part m _ _ directory isStep there plain onward ih =>
    obtain ⟨_, directory'⟩ := dir directory
    have stays : ¬gone (here ++ [part]) := by
      -- Nothing is below a file, so it would be the end of the way.
      intro goes
      rcases onward.start with rfl | ⟨_, inside⟩
      · exact other goes
      · exact leaf inside (by simp) goes
    obtain ⟨m', there', remains⟩ := kept _ _ there stays
    obtain ⟨n', onward', rest⟩ := ih other
    refine ⟨n', .entry directory' isStep there' (fun target => ?_) onward', rest⟩
    rintro rfl
    cases remains
    exact plain target rfl
  | last directory isStep there unfollowed =>
    obtain ⟨_, directory'⟩ := dir directory
    exact ⟨_, .last directory' isStep (link there) unfollowed, .same _⟩
  | link directory isStep there followed some _ ih =>
    obtain ⟨_, directory'⟩ := dir directory
    obtain ⟨n', onward', remains⟩ := ih other
    exact ⟨n', .link directory' isStep (link there) followed some onward', remains⟩

/-- What a path denotes elsewhere than a file, it still denotes when the file is removed. -/
theorem resolve_remains {fs : Files} {path : String}
    (file : fs.root.at? gone = some (.file data)) (other : loc ≠ gone)
    (found : fs.resolve follow path = .ok (.found loc n)) :
    ∃ n', Files.resolve { fs with root := fs.root.cut gone } follow path = .ok (.found loc n') ∧
      n.Remains n' := by
  obtain ⟨isPath, way⟩ := resolve_eq_found_iff.mp found
  obtain ⟨n', way', remains⟩ := way.remains (fun loc (same : loc = gone) => ⟨data, same ▸ file⟩)
    (fun _ _ there other => Node.at?_cut_other file there other) other
  exact ⟨n', resolve_eq_found_iff.mpr ⟨isPath, way'⟩, remains⟩

end ways

/-! ## Removals -/

section removals

variable {fs fs' : Files} {dir p q : String} {gone : List String}

/-- A path that is too long denotes nothing, whatever the files are. -/
theorem node_of_long (long : pathLimit < q.utf8ByteSize) (follow : Bool) :
    fs'.node follow q = fs.node follow q := by
  have same : fs'.resolve follow q = fs.resolve follow q := by
    simp only [resolve, if_pos long]
  rw [node, same, node]

/-- A file of a directory is removed. -/
theorem without_of_remove (proper : fs.root.Proper) (directory : fs.isDir dir = true)
    (listed : p ∈ fs.filesBelow dir) (removed : fs.remove p = .ok fs') :
    fs.Without dir [p] fs' := by
  obtain ⟨entries, directory⟩ := isDir_iff.mp directory
  obtain ⟨loc, found⟩ := node_eq_ok_iff.mp directory
  have here := at?_of_resolve found
  have properDir := (proper.at? here).2
  obtain ⟨names, data, some, rfl, there, resolved⟩ :=
    resolve_of_mem_filesBelow proper found listed
  -- The path could be followed, since its file is removed.
  have cut : fs' = { fs with root := fs.root.cut (loc ++ names) } := by
    unfold remove at removed
    cases spot : fs.resolve false (below dir names) with
    | error f => simp [spot] at removed
    | ok s =>
      rw [resolved (isPath_of_resolve spot).short false] at removed
      exact (Except.ok.inj removed).symm
  subst cut
  have file : fs.root.at? (loc ++ names) = .some (.file data) := by
    rw [Node.at?_append, here]
    exact there
  have still : ∃ others, Files.node { fs with root := fs.root.cut (loc ++ names) } true dir =
      .ok (.dir others) ∧ Node.dir others = (Node.dir entries).cut names := by
    have above : loc ≠ loc ++ names := by simpa using some
    obtain ⟨n, found', remains⟩ := resolve_remains file above found
    obtain ⟨others, rfl⟩ := remains.dir_inv
    refine ⟨others, node_eq_ok_iff.mpr ⟨loc, found'⟩, ?_⟩
    exact Option.some.inj ((at?_of_resolve found').symm.trans (Node.at?_cut_above here some))
  obtain ⟨others, directory', shape⟩ := still
  refine ⟨proper.cut _, isDir_iff.mpr ⟨_, directory'⟩, ?_, fun q hq differ => ?_⟩
  · rw [filesBelow_of_dir directory', shape, Node.filesAt_cut properDir some there,
      filesBelow_of_dir directory]
    simp only [List.mem_singleton]
  · obtain ⟨names', data', -, rfl, -, resolved'⟩ := resolve_of_mem_filesBelow proper found hq
    by_cases long : pathLimit < (below dir names').utf8ByteSize
    · exact node_of_long long true
    · have found' := resolved' (Nat.not_lt.mp long) true
      have apart : loc ++ names' ≠ loc ++ names := by
        intro same
        rw [List.append_cancel_left same] at differ
        exact differ List.mem_cons_self
      obtain ⟨n, found'', remains⟩ := resolve_remains file apart found'
      cases remains
      rw [node, found'', node, found']

/-- Some files of a directory are removed, one after the other. -/
theorem without_of_removeEach (proper : fs.root.Proper) (directory : fs.isDir dir = true)
    (distinct : gone.Nodup) (listed : ∀ p ∈ gone, p ∈ fs.filesBelow dir)
    (removed : fs.removeEach gone = .ok fs') : fs.Without dir gone fs' := by
  induction gone generalizing fs with
  | nil =>
    cases removed
    exact ⟨proper, directory, by simp, fun _ _ _ => rfl⟩
  | cons p rest ih =>
    obtain ⟨fresh, distinct⟩ := List.nodup_cons.mp distinct
    obtain ⟨here, later⟩ := List.forall_mem_cons.mp listed
    rw [removeEach] at removed
    cases first : fs.remove p with
    | error f => simp [first] at removed
    | ok fs₁ =>
      simp only [first] at removed
      have one := without_of_remove proper directory here first
      have left : ∀ q ∈ rest, q ∈ fs₁.filesBelow dir := by
        intro q hq
        rw [one.listed]
        refine List.mem_filter.mpr ⟨later q hq, decide_eq_true ?_⟩
        rintro same
        exact fresh (List.mem_singleton.mp same ▸ hq)
      have more := ih one.proper one.directory distinct left removed
      refine ⟨more.proper, more.directory, ?_, fun q hq stays => ?_⟩
      · rw [more.listed, one.listed, List.filter_filter]
        exact List.filter_congr fun q _ => by simp [Bool.and_comm]
      · rw [List.mem_cons, not_or] at stays
        have stays₁ : q ∉ [p] := by simpa using stays.1
        have there : q ∈ fs₁.filesBelow dir := by
          rw [one.listed]
          exact List.mem_filter.mpr ⟨hq, decide_eq_true stays₁⟩
        exact (more.others q there stays.2).trans (one.others q hq stays₁)

/-- The candidates are the others. -/
theorem Without.candidates (without : fs.Without dir gone fs') (extension : String) :
    fs'.candidates dir extension = (fs.candidates dir extension).filter (· ∉ gone) := by
  unfold Files.candidates
  rw [without.listed, List.filter_filter, List.filter_filter]
  exact List.filter_congr fun q _ => Bool.and_comm ..

end removals

end PluginHost.Files
