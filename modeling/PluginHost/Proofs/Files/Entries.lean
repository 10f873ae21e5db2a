import PluginHost.Proofs.Files.Path
import PluginHost.Proofs.Files.Ways

/-!
# Entries of directories

A path that goes on below a directory with names of entries denotes what these lead to,
however the directory is reached: over how many parts, and over how many links.

* `IsName` are the names that an entry can have.
* `below` is the path that names lead to below a path.

Results:
1. `named_below`: a path tells the names that were put below it.
2. `Way.of_names` and `way_below`: names of entries are a way along them.
3. `resolve_below` and `node_join`: a path denotes what it names, if this is no link.
4. `location_below`: what is put below a directory is an entry of it.
-/

namespace PluginHost.Files

/-! ## Definitions -/

/-- A name that an entry of a directory can have: it is not empty, it is not `.` or `..`, it has
no `/` and no NUL in it, and it is not too long. -/
structure IsName (name : String) : Prop where
  some : name ≠ ""
  here : name ≠ "."
  above : name ≠ ".."
  plain : '/' ∉ name.toList
  text : Terminated.hasNul name = false
  short : name.utf8ByteSize ≤ nameLimit

instance (name : String) : Decidable (IsName name) :=
  decidable_of_iff (name ≠ "" ∧ name ≠ "." ∧ name ≠ ".." ∧ '/' ∉ name.toList ∧
      Terminated.hasNul name = false ∧ name.utf8ByteSize ≤ nameLimit)
    ⟨fun h => ⟨h.1, h.2.1, h.2.2.1, h.2.2.2.1, h.2.2.2.2.1, h.2.2.2.2.2⟩,
      fun h => ⟨h.some, h.here, h.above, h.plain, h.text, h.short⟩⟩

/-- The path of a directory; the empty one stands for the working directory. -/
def orHere (dir : String) : String :=
  if dir = "" then "." else dir

/-- The parts of a path that name something. -/
def named (path : String) : List String :=
  ((splitOn '/' path.toList).filter (· ≠ [])).map String.ofList

/-- The path that names lead to below a path. -/
def below (path : String) (names : List String) : String :=
  names.foldl Path.join path

theorem IsName.isStep {name : String} (isName : IsName name) : IsStep name :=
  ⟨isName.here, isName.above, isName.short⟩

theorem IsName.isSegment {name : String} (isName : IsName name) : Path.IsSegment name :=
  ⟨isName.some, isName.here, isName.plain⟩

/-! ## Paths -/

section paths

variable {path dir name : String} {names : List String} {parts : List (List Char)}

/-- The steps of a path that ends with a name. -/
theorem stepsOf_of_split (split : splitOn '/' path.toList = parts ++ [name.toList])
    (some : name ≠ "") :
    stepsOf path = (parts.filter (· ≠ [])).map String.ofList ++ [name] := by
  have kept : name.toList ≠ [] := by simpa using some
  simp [stepsOf, split, List.filter_append, kept]

/-- The steps of a directory are its names, but that a step on the spot may follow. -/
theorem stepsOf_orHere (dir : String) :
    ∃ idle, (idle = [] ∨ idle = ["."]) ∧ stepsOf (orHere dir) = named dir ++ idle := by
  unfold orHere
  split
  · next empty =>
    subst empty
    exact ⟨["."], .inr rfl, by decide⟩
  · unfold stepsOf
    dsimp only
    split
    · exact ⟨["."], .inr rfl, rfl⟩
    · exact ⟨[], .inl rfl, (List.append_nil _).symm⟩

/-- Such a name is a part of its own, and the others name the directory. -/
theorem splitOn_join (segment : Path.IsSegment name) (dir : String) :
    ∃ parts, splitOn '/' (Path.join dir name).toList = parts ++ [name.toList] ∧
      (parts.filter (· ≠ [])).map String.ofList = named dir := by
  have whole : splitOn '/' name.toList = [name.toList] := splitOn_of_not_mem segment.plain
  rcases Path.join_shape segment dir with ⟨rfl, alone⟩ | ⟨before, -, chars, ends⟩
  · exact ⟨[], by rw [alone, whole]; rfl, by decide⟩
  · refine ⟨splitOn '/' before, by rw [chars, splitOn_append, whole], ?_⟩
    rw [named]
    rcases ends with ends | ends
    · rw [ends, splitOn_append, List.filter_append]
      simp [splitOn]
    · rw [ends]

theorem stepsOf_join (segment : Path.IsSegment name) (dir : String) :
    stepsOf (Path.join dir name) = named dir ++ [name] := by
  obtain ⟨parts, split, directory⟩ := splitOn_join segment dir
  rw [stepsOf_of_split split segment.some, directory]

theorem named_join (segment : Path.IsSegment name) (dir : String) :
    named (Path.join dir name) = named dir ++ [name] := by
  have kept : name.toList ≠ [] := by simpa using segment.some
  obtain ⟨parts, split, directory⟩ := splitOn_join segment dir
  rw [named, split, List.filter_append, List.map_append, directory]
  simp [kept]

theorem join_ne_empty (segment : Path.IsSegment name) (dir : String) :
    Path.join dir name ≠ "" := by
  intro empty
  have steps := stepsOf_join segment dir
  rw [empty] at steps
  exact absurd steps.symm (by simp [stepsOf, splitOn])

/-- Where a path starts is seen from its start. -/
theorem origin_eq (here : List String) (path : String) :
    origin here path = if Path.start path.toList = ['/'] then [] else here := by
  refine if_congr (List.head?_eq_some_iff.trans ⟨?_, fun root => ?_⟩) rfl rfl
  · rintro ⟨rest, chars⟩
    rw [chars]
    rfl
  · unfold Path.start at root
    split at root
    · next rest chars => exact ⟨rest, chars⟩
    all_goals simp at root

theorem origin_orHere (here : List String) (dir : String) :
    origin here (orHere dir) = origin here dir := by
  unfold orHere
  split
  · next empty =>
    rw [empty]
    rfl
  · rfl

theorem origin_join (segment : Path.IsSegment name) (here : List String) (dir : String) :
    origin here (Path.join dir name) = origin here (orHere dir) := by
  rw [origin_orHere, origin_eq, origin_eq, (Path.body_join segment dir).1]

theorem hasNul_join (isName : IsName name) (text : Terminated.hasNul (orHere dir) = false) :
    Terminated.hasNul (Path.join dir name) = false := by
  rcases Path.join_shape isName.isSegment dir with ⟨rfl, alone⟩ | ⟨before, some, chars, ends⟩
  · rw [alone, isName.text]
  · have plain := isName.text
    rw [orHere, if_neg some] at text
    simp only [Terminated.hasNul, List.any_eq_false] at text plain ⊢
    intro c hc
    rw [chars, List.mem_append, List.mem_cons] at hc
    rcases hc with hc | rfl | hc
    · refine text c ?_
      rcases ends with ends | ends
      · exact ends ▸ List.mem_append_left _ hc
      · exact ends ▸ hc
    · decide
    · exact plain c hc

/-! ### Several names -/

@[simp] theorem below_nil (path : String) : below path [] = path := rfl

theorem below_cons (path name : String) (names : List String) :
    below path (name :: names) = below (Path.join path name) names := rfl

theorem below_concat (path : String) (names : List String) (name : String) :
    below path (names ++ [name]) = Path.join (below path names) name :=
  List.foldl_append ..

/-- A path tells the names that were put below it. -/
theorem named_below (proper : ∀ name ∈ names, IsName name) (path : String) :
    named (below path names) = named path ++ names := by
  induction names generalizing path with
  | nil => exact (List.append_nil _).symm
  | cons name rest ih =>
    obtain ⟨isName, others⟩ := List.forall_mem_cons.mp proper
    rw [below_cons, ih others, named_join isName.isSegment, List.append_assoc,
      List.singleton_append]

theorem components_below (proper : ∀ name ∈ names, IsName name) (path : String) :
    Path.components (below path names) = Path.components path ++ names := by
  induction names generalizing path with
  | nil => exact (List.append_nil _).symm
  | cons name rest ih =>
    obtain ⟨isName, others⟩ := List.forall_mem_cons.mp proper
    rw [below_cons, ih others, Path.components_join isName.isSegment, List.append_assoc,
      List.singleton_append]

/-- Some names that are put below a path are its last steps. -/
theorem stepsOf_below (proper : ∀ name ∈ names, IsName name) (some : names ≠ []) (path : String) :
    stepsOf (below path names) = named path ++ names := by
  obtain ⟨front, last, rfl⟩ : ∃ front last, names = front ++ [last] :=
    ⟨_, _, (List.dropLast_concat_getLast some).symm⟩
  have first : ∀ name ∈ front, IsName name := fun name hn => proper name (by simp [hn])
  rw [below_concat, stepsOf_join (proper last (by simp)).isSegment, named_below first,
    List.append_assoc]

/-- Such a path can be looked at as far as the directory can, and starts where it does. -/
theorem below_proper (proper : ∀ name ∈ names, IsName name) (some : names ≠ [])
    (text : Terminated.hasNul (orHere path) = false) :
    below path names ≠ "" ∧ Terminated.hasNul (below path names) = false ∧
      ∀ here, origin here (below path names) = origin here (orHere path) := by
  induction names generalizing path with
  | nil => exact absurd rfl some
  | cons name rest ih =>
    obtain ⟨isName, others⟩ := List.forall_mem_cons.mp proper
    have first := join_ne_empty isName.isSegment path
    have one : orHere (Path.join path name) = Path.join path name := if_neg first
    have plain := hasNul_join isName text
    cases rest with
    | nil => exact ⟨first, plain, fun here => origin_join isName.isSegment here path⟩
    | cons next rest =>
      obtain ⟨named, tight, starts⟩ := ih others (by simp) (by rwa [one])
      refine ⟨named, tight, fun here => (starts here).trans ?_⟩
      rw [one, origin_join isName.isSegment]

/-! ### The directory of a path -/

/-- The names of a path are its parts that are not empty, and a `.` in front is one of them. -/
theorem named_eq (path : String) : named path =
    ([Path.start path.toList].filter (· = ['.']) ++
      (Path.body path.toList).filter (· ≠ [])).map String.ofList := by
  unfold named Path.body Path.start
  generalize path.toList = cs
  split <;> simp [splitOn]

/-- Without idle parts at its end, a path has the same names but for some steps on the spot. -/
theorem named_trimmed (path : String) :
    ∃ idle, (∀ part ∈ idle, part = ".") ∧ named path = named (Path.trimmed path) ++ idle := by
  let rest := (Path.body path.toList).rtakeWhile Path.isIdle
  refine ⟨(rest.filter (· ≠ [])).map String.ofList, fun part hpart => ?_, ?_⟩
  · obtain ⟨cs, hcs, rfl⟩ := List.mem_map.mp hpart
    obtain ⟨hcs, some⟩ := List.mem_filter.mp hcs
    have idle := List.mem_rtakeWhile_imp hcs
    simp only [Path.isIdle, Bool.or_eq_true, decide_eq_true_eq] at idle some
    rw [idle.resolve_left some]
  · have split : Path.body path.toList = Path.parts path.toList ++ rest :=
      List.rdropWhile_append_rtakeWhile.symm
    rw [named_eq path, split, List.filter_append, ← List.append_assoc, List.map_append,
      named_eq (Path.trimmed path), Path.start_trimmed, Path.filter_body_trimmed (by decide)]

theorem start_below (proper : ∀ name ∈ names, Path.IsSegment name) (path : String) :
    Path.start (below path names).toList = Path.start path.toList := by
  induction names generalizing path with
  | nil => rfl
  | cons name rest ih =>
    obtain ⟨segment, others⟩ := List.forall_mem_cons.mp proper
    rw [below_cons, ih others, (Path.body_join segment path).1]

end paths

/-! ## What a path denotes -/

section nodes

variable {fs : Files} {root n entry : Node} {follow : Bool} {budget : Nat} {dir name : String}
  {here names loc : List String} {entries inner : List (String × Node)}

/-- Names of entries are a way along them, if the last entry is no link. -/
theorem Way.of_names (proper : ∀ name ∈ names, IsName name) (start : root.at? here = some n)
    (there : n.at? names = some entry) (plain : ∀ target, entry ≠ .link target) :
    Way root follow budget here names (here ++ names) entry := by
  induction names generalizing here n with
  | nil =>
    obtain rfl := Option.some.inj (n.at?_nil.symm.trans there)
    rw [List.append_nil]
    exact .ends start
  | cons name rest ih =>
    obtain ⟨isName, others⟩ := List.forall_mem_cons.mp proper
    obtain ⟨entries, next, rfl, found, there⟩ := Node.at?_cons_iff.mp there
    have placed := (Node.at?_concat start).trans found
    have onward := ih others placed there
    rw [List.append_assoc, List.singleton_append] at onward
    refine .entry start isName.isStep placed (fun target => ?_) onward
    rintro rfl
    -- Nothing is below a link, so it would have to be the last entry.
    cases rest with
    | nil => exact plain target (Option.some.inj there).symm
    | cons _ _ => cases there

/-- A path that denotes something is not the empty one. -/
theorem resolve_orHere {spot : Spot} (found : fs.resolve follow dir = .ok spot) :
    fs.resolve follow (orHere dir) = .ok spot := by
  rw [orHere, if_neg (isPath_of_resolve found).some, found]

/-- The names of a directory are a way to it. -/
theorem way_of_directory (directory : fs.resolve true (orHere dir) = .ok (.found loc n)) :
    Way fs.root true linkLimit (origin fs.cwd (orHere dir)) (named dir) loc n := by
  obtain ⟨-, way⟩ := resolve_eq_found_iff.mp directory
  obtain ⟨idle, rfl | rfl, steps⟩ := stepsOf_orHere dir
  · rwa [steps, List.append_nil] at way
  · exact (steps ▸ way).of_here

/-- A path below a directory denotes what it names there, if this is not a link. -/
theorem resolve_below (proper : ∀ name ∈ names, IsName name) (some : names ≠ [])
    (short : (below dir names).utf8ByteSize ≤ pathLimit)
    (directory : fs.resolve true (orHere dir) = .ok (.found loc (.dir entries)))
    (there : (Node.dir entries).at? names = .some entry) (plain : ∀ target, entry ≠ .link target) :
    fs.resolve follow (below dir names) = .ok (.found (loc ++ names) entry) := by
  obtain ⟨named', text', starts⟩ := below_proper proper some (isPath_of_resolve directory).text
  refine resolve_eq_found_iff.mpr ⟨⟨text', named', short⟩, ?_⟩
  rw [stepsOf_below proper some, starts]
  exact (way_of_directory directory).goesOn some fun _ =>
    .of_names proper (at?_of_resolve directory) there plain

/-- The names of a directory that is below another are a way to it. -/
theorem way_below (proper : ∀ part ∈ names, IsName part)
    (directory : fs.resolve true (orHere dir) = .ok (.found loc (.dir entries)))
    (there : (Node.dir entries).at? names = some (.dir inner)) :
    Way fs.root true linkLimit (origin fs.cwd dir) (named (below dir names)) (loc ++ names)
      (.dir inner) := by
  have way := way_of_directory directory
  rw [origin_orHere] at way
  rw [named_below proper]
  by_cases none : names = []
  · subst none
    cases there
    rwa [List.append_nil, List.append_nil]
  · exact way.goesOn none fun _ => .of_names proper (at?_of_resolve directory) there (by simp)

/-- What is put below a directory under a name of its own is an entry of it, if a last link is not
followed, whether idle parts at the end of its path are left out or not. -/
theorem location_below {found : List String} (proper : ∀ part ∈ names, IsName part)
    (directory : fs.resolve true (orHere dir) = .ok (.found loc (.dir entries)))
    (there : (Node.dir entries).at? names = some (.dir inner)) (segment : Path.IsSegment name)
    (other : name ≠ "..")
    (denoted : fs.resolve false (Path.join (Path.trimmed (below dir names)) name) =
      .ok (.found found n)) : found = loc ++ names ++ [name] := by
  obtain ⟨-, way⟩ := resolve_eq_found_iff.mp denoted
  have same := start_below (fun part hpart => (proper part hpart).isSegment) dir
  have starts : origin fs.cwd (Path.join (Path.trimmed (below dir names)) name) =
      origin fs.cwd dir := by
    rw [origin_eq, origin_eq, (Path.body_join segment _).1, Path.start_trimmed, same]
  rw [stepsOf_join segment, starts] at way
  obtain ⟨parent, _, toParent, rfl⟩ := way.last_entry ⟨segment.here, other⟩
  obtain ⟨idle, still, split⟩ := named_trimmed (below dir names)
  have along := way_below proper directory there
  rw [split] at along
  obtain ⟨rfl, -⟩ := (along.of_idle still).unique toParent
  rfl

/-- A path denotes the entry that it names in a directory, if this is not a link. -/
theorem node_join (isName : IsName name)
    (short : (Path.join dir name).utf8ByteSize ≤ pathLimit)
    (directory : fs.node true (orHere dir) = .ok (.dir entries))
    (there : find? name entries = some entry) (plain : ∀ target, entry ≠ .link target) :
    fs.node true (Path.join dir name) = .ok entry := by
  obtain ⟨loc, directory⟩ := node_eq_ok_iff.mp directory
  have proper : ∀ part ∈ [name], IsName part := by simpa using isName
  have inside : (Node.dir entries).at? [name] = some entry := by
    rw [Node.at?, there]
    cases entry <;> rfl
  have found : fs.resolve true (below dir [name]) = .ok (.found (loc ++ [name]) entry) :=
    resolve_below proper (by simp) short directory inside plain
  exact node_eq_ok_iff.mpr ⟨loc ++ [name], found⟩

end nodes

end PluginHost.Files
