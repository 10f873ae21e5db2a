import PluginHost.Proofs.Files.Removal

/-!
# Candidates of a directory

What a walk lists is in one order as a whole. This order and the files that there are leave nothing
open, so it does not matter in which order a directory stores its entries.

* `Node.Rearranged` are trees that differ only in how entries are stored.
* `Enumerates` says what candidates are.

Results:
1. `mem_candidates_iff`: what is listed.
2. `Node.Rearranged.at?` and `resolve_rearranged`: paths denote the same in any arrangement.
3. `candidates_are_enumerated`: candidates are the files with an extension, each once, in order.
-/

namespace PluginHost.Files

/-! ## Definitions -/

/-- The trees differ only in the order in which directories store their entries, at any depth. -/
inductive Node.Rearranged : Node → Node → Prop
  | refl (n : Node) : Rearranged n n
  | trans {n m k : Node} : Rearranged n m → Rearranged m k → Rearranged n k
  | entries {es es' : List (String × Node)} : es.Perm es' → Rearranged (.dir es) (.dir es')
  | entry {n m : Node} (name : String) (before after : List (String × Node)) : Rearranged n m →
      Rearranged (.dir (before ++ (name, n) :: after)) (.dir (before ++ (name, m) :: after))

/-- What the candidates of a directory with these entries are.

* `listed`: of all that is below the directory, at any depth, the files whose name has the
  extension are listed, and directories, links and other files are not.
* `only`: nothing else is listed.
* `apart`: what is below the directory has paths of its own.
* `once`: nothing is listed twice.
* `ordered`: each path comes before those that follow.
* `stored`: the order in which entries are stored, there or elsewhere, does not matter. -/
structure Enumerates (fs : Files) (dir extension : String) (entries : List (String × Node)) :
    Prop where
  listed : ∀ names n, (Node.dir entries).at? names = some n →
    (below dir names ∈ fs.candidates dir extension ↔ (∃ data, n = .file data) ∧
      ∃ name, names.getLast? = some name ∧ Path.HasExtension name extension)
  only : ∀ q ∈ fs.candidates dir extension, ∃ names n,
    (Node.dir entries).at? names = some n ∧ q = below dir names
  apart : ∀ names names' n n', (Node.dir entries).at? names = some n →
    (Node.dir entries).at? names' = some n' → below dir names = below dir names' → names = names'
  once : (fs.candidates dir extension).Nodup
  ordered : (fs.candidates dir extension).Pairwise Path.Before
  stored : ∀ root, fs.root.Rearranged root →
    Files.candidates { fs with root } dir extension = fs.candidates dir extension

/-! ## What is listed -/

section listed

variable {fs : Files} {dir extension q : String} {entries : List (String × Node)}

/-- The path of an entry has the name of the entry for a last part. -/
theorem fileName?_below {names : List String} {name : String}
    (proper : ∀ part ∈ names ++ [name], IsName part) (dir : String) :
    Path.fileName? (below dir (names ++ [name])) = some name := by
  have isName := proper name (by simp)
  rw [below_concat]
  exact Path.fileName?_join isName.isSegment isName.above _

/-- What is listed has the extension. -/
theorem extension?_of_mem_candidates (listed : q ∈ fs.candidates dir extension) :
    Path.extension? q = some extension := by
  simpa using (List.mem_filter.mp listed).2

/-- What is listed is a file of the directory, at any depth, whose name has the extension. -/
theorem mem_candidates_iff (proper : (Node.dir entries).Proper)
    (directory : fs.node true dir = .ok (.dir entries)) :
    q ∈ fs.candidates dir extension ↔ ∃ names name data,
      (Node.dir entries).at? (names ++ [name]) = some (.file data) ∧
        Path.HasExtension name extension ∧ q = below dir (names ++ [name]) := by
  have named {names : List String} {name : String} {n : Node}
      (there : (Node.dir entries).at? (names ++ [name]) = some n) :
      Path.fileName? (below dir (names ++ [name])) = some name :=
    fileName?_below (proper.at? there).1 dir
  rw [candidates, filesBelow_of_dir directory, List.mem_filter, Node.mem_filesAt proper]
  constructor
  · rintro ⟨⟨names, data, there, rfl⟩, ends⟩
    obtain ⟨front, name, rfl⟩ : ∃ front name, names = front ++ [name] := by
      have some : names ≠ [] := by
        rintro rfl
        cases there
      exact ⟨_, _, (List.dropLast_concat_getLast some).symm⟩
    have has := (Path.extension?_eq_some_iff (named there)).mp (by simpa using ends)
    exact ⟨front, name, data, there, has, rfl⟩
  · rintro ⟨names, name, data, there, has, rfl⟩
    refine ⟨⟨_, data, there, rfl⟩, ?_⟩
    simpa using (Path.extension?_eq_some_iff (named there)).mpr has

/-- What is below a directory has paths of its own. -/
theorem below_injective {names names' : List String} {n n' : Node}
    (proper : (Node.dir entries).Proper) (there : (Node.dir entries).at? names = some n)
    (there' : (Node.dir entries).at? names' = some n') (same : below dir names = below dir names') :
    names = names' := by
  have parts := congrArg Path.components same
  rw [components_below (proper.at? there).1, components_below (proper.at? there').1] at parts
  exact List.append_cancel_left parts

/-- Where there are different candidates, there is a directory. -/
theorem directory_of_candidates (hq : q ∈ fs.candidates dir extension)
    (hp : p ∈ fs.candidates dir extension) (differ : q ≠ p) :
    ∃ loc entries, fs.resolve true dir = .ok (.found loc (.dir entries)) := by
  have listed := (List.mem_filter.mp hq).1
  have other := (List.mem_filter.mp hp).1
  rcases fs.filesBelow_cases dir with none | ⟨n, found, walked⟩
  · rw [none] at listed
    cases listed
  rw [walked] at listed other
  cases n with
  | file data => exact absurd ((List.mem_singleton.mp listed).trans
      (List.mem_singleton.mp other).symm) differ
  | link target => cases listed
  | dir entries =>
    obtain ⟨loc, found⟩ := node_eq_ok_iff.mp found
    exact ⟨loc, entries, found⟩

end listed

/-! ## Entries stored in another order -/

namespace Node.Rearranged

variable {n m a : Node} {loc : List String}

theorem symm (h : n.Rearranged m) : m.Rearranged n := by
  induction h with
  | refl n => exact .refl n
  | trans _ _ ih ih' => exact .trans ih' ih
  | entries perm => exact .entries perm.symm
  | entry name before after _ ih => exact .entry name before after ih

theorem remains (h : n.Rearranged m) : n.Remains m := by
  induction h with
  | refl n => exact .same n
  | trans _ _ ih ih' =>
    cases ih with
    | same => exact ih'
    | dir es es' =>
      obtain ⟨others, rfl⟩ := ih'.dir_inv
      exact .dir es others
  | entries _ => exact .dir _ _
  | entry _ _ _ _ _ => exact .dir _ _

theorem proper (h : n.Rearranged m) (proper : n.Proper) : m.Proper := by
  induction h with
  | refl n => exact proper
  | trans _ _ ih ih' => exact ih' (ih proper)
  | entries perm =>
    cases proper with
    | dir distinct names below =>
      exact .dir ((perm.map _).nodup_iff.mp distinct) (fun e he => names e (perm.mem_iff.mpr he))
        fun e he => below e (perm.mem_iff.mpr he)
  | @entry n m name before after _ ih =>
    cases proper with
    | dir distinct names below =>
      obtain ⟨front, here⟩ := List.forall_mem_append.mp names
      obtain ⟨isName, back⟩ := List.forall_mem_cons.mp here
      obtain ⟨front', here'⟩ := List.forall_mem_append.mp below
      obtain ⟨inside, back'⟩ := List.forall_mem_cons.mp here'
      exact .dir (by simpa using distinct)
        (List.forall_mem_append.mpr ⟨front, List.forall_mem_cons.mpr ⟨isName, back⟩⟩)
        (List.forall_mem_append.mpr ⟨front', List.forall_mem_cons.mpr ⟨ih inside, back'⟩⟩)

/-- What is somewhere in a tree is there in any arrangement of it, arranged anew. -/
theorem at? (h : n.Rearranged m) (proper : n.Proper) (there : n.at? loc = some a) :
    ∃ b, m.at? loc = some b ∧ a.Rearranged b := by
  induction h generalizing loc a with
  | refl n => exact ⟨a, there, .refl a⟩
  | trans first _ ih ih' =>
    obtain ⟨b, there', one⟩ := ih proper there
    obtain ⟨c, there'', two⟩ := ih' (first.proper proper) there'
    exact ⟨c, there'', .trans one two⟩
  | @entries es es' perm =>
    have others := (Rearranged.entries perm).proper proper
    cases loc with
    | nil =>
      cases there
      exact ⟨_, rfl, .entries perm⟩
    | cons name rest =>
      obtain ⟨next, found, there⟩ := Node.at?_dir_cons_iff.mp there
      cases others with
      | dir distinct _ _ =>
        have mem := perm.mem_iff.mp (mem_of_find? found)
        exact ⟨a, Node.at?_dir_cons_iff.mpr ⟨next, find?_of_mem distinct mem, there⟩, .refl a⟩
  | @entry n m key before after inner ih =>
    have others := (Rearranged.entry key before after inner).proper proper
    cases loc with
    | nil =>
      cases there
      exact ⟨_, rfl, .entry key before after inner⟩
    | cons name rest =>
      obtain ⟨next, found, there⟩ := Node.at?_dir_cons_iff.mp there
      cases proper with
      | dir _ _ below =>
        cases others with
        | dir distinct _ _ =>
          have mem := mem_of_find? found
          rw [List.mem_append, List.mem_cons] at mem
          -- It is the entry that is arranged anew, or another one.
          by_cases here : (name, next) = (key, n)
          · cases here
            have own : (key, m) ∈ before ++ (key, m) :: after := by simp
            obtain ⟨b, there', same⟩ := ih (below (key, n) (by simp)) there
            exact ⟨b, Node.at?_dir_cons_iff.mpr ⟨m, find?_of_mem distinct own, there'⟩, same⟩
          · have mem' : (name, next) ∈ before ++ (key, m) :: after := by
              rw [List.mem_append, List.mem_cons]
              exact mem.imp_right fun h => .inr (h.resolve_left here)
            exact ⟨a, Node.at?_dir_cons_iff.mpr ⟨next, find?_of_mem distinct mem', there⟩, .refl a⟩

end Node.Rearranged

section stored

variable {fs : Files} {root n : Node} {follow : Bool} {path dir extension : String}
  {loc : List String} {entries : List (String × Node)}

/-- A path denotes the same in any arrangement. -/
theorem resolve_rearranged (rearranged : fs.root.Rearranged root) (proper : fs.root.Proper)
    (found : fs.resolve follow path = .ok (.found loc n)) :
    ∃ m, Files.resolve { fs with root } follow path = .ok (.found loc m) ∧ n.Rearranged m := by
  obtain ⟨isPath, way⟩ := resolve_eq_found_iff.mp found
  have kept (loc : List String) (m : Node) (there : fs.root.at? loc = some m) (_ : ¬False) :
      ∃ m', root.at? loc = some m' ∧ m.Remains m' := by
    obtain ⟨m', there', same⟩ := rearranged.at? proper there
    exact ⟨m', there', same.remains⟩
  obtain ⟨m, way', -⟩ := way.remains (fun _ (none : False) => none.elim) kept not_false
  obtain ⟨m', there', same⟩ := rearranged.at? proper way.at?
  obtain rfl : m = m' := Option.some.inj (way'.at?.symm.trans there')
  exact ⟨m, resolve_eq_found_iff.mpr ⟨isPath, way'⟩, same⟩

/-- What is listed is listed in any arrangement. -/
theorem mem_candidates_rearranged (fs : Files) {q : String}
    (rearranged : fs.root.Rearranged root) (proper : fs.root.Proper)
    (directory : fs.node true dir = .ok (.dir entries))
    (listed : q ∈ fs.candidates dir extension) :
    q ∈ Files.candidates { fs with root } dir extension := by
  obtain ⟨loc, found⟩ := node_eq_ok_iff.mp directory
  obtain ⟨m, found', same⟩ := resolve_rearranged rearranged proper found
  obtain ⟨entries', rfl⟩ := same.remains.dir_inv
  have properDir := (proper.at? (at?_of_resolve found)).2
  have directory' := node_eq_ok_iff.mpr ⟨loc, found'⟩
  obtain ⟨names, name, data, there, has, rfl⟩ := (mem_candidates_iff properDir directory).mp listed
  obtain ⟨leaf, there', file⟩ := same.at? properDir there
  cases file.remains
  exact (mem_candidates_iff (same.proper properDir) directory').mpr
    ⟨names, name, data, there', has, rfl⟩

/-- What is listed does not depend on the arrangement: it is the same, and in order. -/
theorem candidates_rearranged (rearranged : fs.root.Rearranged root) (proper : fs.root.Proper)
    (directory : fs.node true dir = .ok (.dir entries)) :
    Files.candidates { fs with root } dir extension = fs.candidates dir extension := by
  have proper' := rearranged.proper proper
  obtain ⟨loc, found⟩ := node_eq_ok_iff.mp directory
  obtain ⟨m, found', same⟩ := resolve_rearranged rearranged proper found
  obtain ⟨entries', rfl⟩ := same.remains.dir_inv
  have directory' := node_eq_ok_iff.mpr ⟨loc, found'⟩
  have perm : (Files.candidates { fs with root } dir extension).Perm
      (fs.candidates dir extension) := by
    refine (List.perm_ext_iff_of_nodup (nodup_candidates proper' ..)
      (nodup_candidates proper ..)).mpr fun q => ⟨?_, ?_⟩
    · exact mem_candidates_rearranged { fs with root } rearranged.symm proper' directory'
    · exact mem_candidates_rearranged fs rearranged proper directory
  exact perm.eq_of_pairwise (fun p q _ _ before after => absurd after before.asymm)
    (candidates_ordered proper' ..) (candidates_ordered proper ..)

end stored

/-! ## Candidates -/

/-- The candidates of a directory are the files in it with the extension, at any depth, each once,
in the order of their components, and however entries are stored. -/
theorem candidates_are_enumerated (fs : Files) (dir extension : String)
    (entries : List (String × Node)) (proper : fs.root.Proper)
    (directory : fs.node true dir = .ok (.dir entries)) :
    fs.Enumerates dir extension entries := by
  obtain ⟨loc, found⟩ := node_eq_ok_iff.mp directory
  have properDir := (proper.at? (at?_of_resolve found)).2
  constructor
  case listed =>
    intro names n there
    rw [mem_candidates_iff properDir directory]
    constructor
    · rintro ⟨front, name, data, there', has, same⟩
      obtain rfl := below_injective properDir there there' same
      exact ⟨⟨data, Option.some.inj (there.symm.trans there')⟩, name, by simp, has⟩
    · rintro ⟨⟨data, rfl⟩, name, last, has⟩
      obtain ⟨front, rfl⟩ := List.getLast?_eq_some_iff.mp last
      exact ⟨front, name, data, there, has, rfl⟩
  case only =>
    intro q hq
    obtain ⟨front, name, data, there, -, same⟩ := (mem_candidates_iff properDir directory).mp hq
    exact ⟨_, _, there, same⟩
  case apart => exact fun _ _ _ _ there there' => below_injective properDir there there'
  case once => exact nodup_candidates proper dir extension
  case ordered => exact candidates_ordered proper dir extension
  case stored => exact fun root rearranged => candidates_rearranged rearranged proper directory

/-- Entries that are stored in no order. -/
def shelf : List (String × Node) :=
  [("z.so", .file []), ("a-b.so", .file []), (".so", .file []), ("a", .dir [("x.so", .file [])]),
    ("l.so", .link "z.so"), ("d.so", .dir []), ("v.1.so", .file []), ("notes.txt", .file [])]

/-- Of what is on a shelf, four files are candidates. A name that only starts with a dot has no
extension, and what is in a directory comes before the file that goes on where the name of the
directory ends, though not as texts. -/
theorem shelf_is_enumerated :
    let fs : Files := ⟨.dir [("plugins", .dir shelf)], []⟩
    fs.root.Proper ∧ fs.node true "plugins" = .ok (.dir shelf) ∧
      fs.Enumerates "plugins" "so" shelf ∧
      fs.candidates "plugins" "so" =
        ["plugins/a/x.so", "plugins/a-b.so", "plugins/v.1.so", "plugins/z.so"] ∧
      "plugins/a-b.so" < "plugins/a/x.so" := by
  intro fs
  have file (data : List UInt8) := Node.Proper.file data
  have a : Node.Proper (.dir [("x.so", .file [])]) := .dir (by decide) (by decide) (by simp [file])
  have empty : Node.Proper (.dir []) := .dir (by decide) (by decide) (by simp)
  have link := Node.Proper.link "z.so"
  have plugins : Node.Proper (.dir shelf) :=
    .dir (by decide) (by decide +kernel) (by simp [shelf, file, a, empty, link])
  have proper : fs.root.Proper := .dir (by decide) (by decide) (by simp [plugins])
  have directory : fs.node true "plugins" = .ok (.dir shelf) := by rfl
  exact ⟨proper, directory, candidates_are_enumerated fs "plugins" "so" shelf proper directory,
    by decide +kernel, by decide⟩

end PluginHost.Files
