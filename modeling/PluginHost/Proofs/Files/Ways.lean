import Mathlib.Data.List.Induction
import PluginHost.Files.Basic

/-!
# Ways through a tree

What a path denotes is found part by part, and a link on the way is replaced by its target. The
rules for this are said once, by a relation that knows nothing of the order in which the cases
are tried, and all else about ways follows by induction on it.

* `IsStep` are the parts that go to an entry of a directory.
* `Way` says where parts lead to.

Results:
1. `way_iff` and `resolve_eq_found_iff`: a path denotes what its parts lead to.
2. `Way.at?`: what they lead to is there.
3. `Way.last_entry` and `Way.goesOn`: a way to an entry is one to its directory, and a way that
   ends at a directory goes on there.
4. `Way.unfollowed`, `Way.followed` and `resolve_unfollowed`: it matters only for links whether the
   last is followed.
5. `node_ne_isDirectory`: a path is not followed in vain because of a directory.
-/

namespace PluginHost.Files

/-! ## Definitions -/

/-- A part that goes to an entry. -/
structure IsStep (part : String) : Prop where
  here : part ≠ "."
  above : part ≠ ".."
  short : part.utf8ByteSize ≤ nameLimit

/-- `Way root follow budget here parts loc n`: from the location `here`, `parts` lead to the node
`n` at `loc`, and no more links are followed than `budget` says. There is one rule for each thing
that a part can be. -/
inductive Way (root : Node) (follow : Bool) :
    Nat → List String → List String → List String → Node → Prop
  | ends {budget : Nat} {here : List String} {n : Node} (there : root.at? here = some n) :
      Way root follow budget here [] here n
  | here {budget : Nat} {here rest loc : List String} {n : Node}
      {entries : List (String × Node)} (directory : root.at? here = some (.dir entries))
      (onward : Way root follow budget here rest loc n) :
      Way root follow budget here ("." :: rest) loc n
  | above {budget : Nat} {here rest loc : List String} {n : Node}
      {entries : List (String × Node)} (directory : root.at? here = some (.dir entries))
      (onward : Way root follow budget here.dropLast rest loc n) :
      Way root follow budget here (".." :: rest) loc n
  | entry {budget : Nat} {here rest loc : List String} {part : String} {m n : Node}
      {entries : List (String × Node)} (directory : root.at? here = some (.dir entries))
      (isStep : IsStep part) (there : root.at? (here ++ [part]) = some m)
      (plain : ∀ target, m ≠ .link target)
      (onward : Way root follow budget (here ++ [part]) rest loc n) :
      Way root follow budget here (part :: rest) loc n
  | last {budget : Nat} {here : List String} {part target : String}
      {entries : List (String × Node)} (directory : root.at? here = some (.dir entries))
      (isStep : IsStep part) (there : root.at? (here ++ [part]) = some (.link target))
      (unfollowed : follow = false) :
      Way root follow budget here [part] (here ++ [part]) (.link target)
  | link {budget : Nat} {here rest loc : List String} {part target : String} {n : Node}
      {entries : List (String × Node)} (directory : root.at? here = some (.dir entries))
      (isStep : IsStep part) (there : root.at? (here ++ [part]) = some (.link target))
      (followed : rest = [] → follow = true) (some : target ≠ "")
      (onward : Way root follow budget (origin here target) (stepsOf target ++ rest) loc n) :
      Way root follow (budget + 1) here (part :: rest) loc n

/-! ## Locations -/

theorem Node.at?_nil (n : Node) : n.at? [] = some n := by
  cases n <;> rfl

/-- What is below a name is below the entry of this name. -/
theorem Node.at?_dir_cons_iff {entries : List (String × Node)} {m : Node} {name : String}
    {rest : List String} : (Node.dir entries).at? (name :: rest) = some m ↔
      ∃ next, find? name entries = some next ∧ next.at? rest = some m := by
  rw [Node.at?]
  cases find? name entries with
  | none => simp
  | some next => simp

theorem Node.at?_cons_iff {n m : Node} {name : String} {rest : List String} :
    n.at? (name :: rest) = some m ↔ ∃ entries next, n = .dir entries ∧
      find? name entries = some next ∧ next.at? rest = some m := by
  cases n with
  | file data => simp [Node.at?]
  | link target => simp [Node.at?]
  | dir entries => simp [Node.at?_dir_cons_iff]

theorem Node.at?_append (n : Node) (xs ys : List String) :
    n.at? (xs ++ ys) = (n.at? xs).bind fun m => m.at? ys := by
  induction xs generalizing n with
  | nil => cases n <;> rfl
  | cons x xs ih =>
    cases n with
    | file data => rfl
    | link target => rfl
    | dir entries =>
      rw [List.cons_append, Node.at?, Node.at?]
      cases find? x entries with
      | none => rfl
      | some below => exact ih below

/-- An entry is at the location of its directory and its name. -/
theorem Node.at?_concat {root : Node} {loc : List String} {entries : List (String × Node)}
    {name : String} (directory : root.at? loc = some (.dir entries)) :
    root.at? (loc ++ [name]) = find? name entries := by
  rw [Node.at?_append, directory, Option.bind_some, Node.at?]
  cases find? name entries with
  | none => rfl
  | some m => cases m <;> rfl

/-- Only a directory has entries. -/
theorem Node.dir_of_at?_concat {n m : Node} {names : List String} {name : String}
    (there : n.at? (names ++ [name]) = some m) : ∃ entries, n.at? names = some (.dir entries) := by
  rw [Node.at?_append] at there
  obtain ⟨holder, above, inside⟩ := Option.bind_eq_some_iff.mp there
  cases holder with
  | file data => cases inside
  | link target => cases inside
  | dir entries => exact ⟨entries, above⟩

/-! ## Ways and steps -/

section ways

variable {root n m : Node} {follow : Bool} {budget : Nat} {here loc parts rest : List String}
  {part : String} {entries : List (String × Node)}

/-- What comes of a step to an entry. -/
theorem stepWith_entry {expand : List String → String → List String → Except Fault Spot}
    (directory : root.at? here = some (.dir entries)) (isStep : IsStep part)
    (there : root.at? (here ++ [part]) = some m) :
    stepWith root follow expand here (part :: rest) =
      match m with
      | .link target =>
        if rest = [] ∧ !follow then .ok (.found (here ++ [part]) (.link target))
        else expand here target rest
      | _ => stepWith root follow expand (here ++ [part]) rest := by
  rw [Node.at?_concat directory] at there
  rw [stepWith, directory]
  simp only [if_neg isStep.here, if_neg isStep.above, if_neg (Nat.not_lt.mpr isStep.short), there]
  cases m <;> rfl

/-- Steps that find something are a way to it, if this is so behind links. -/
theorem way_of_stepWith {expand : List String → String → List String → Except Fault Spot}
    (links : ∀ here target rest, expand here target rest = .ok (.found loc n) →
      ∃ fewer, budget = fewer + 1 ∧ target ≠ "" ∧
        Way root follow fewer (origin here target) (stepsOf target ++ rest) loc n)
    (found : stepWith root follow expand here parts = .ok (.found loc n)) :
    Way root follow budget here parts loc n := by
  induction parts generalizing here with
  | nil =>
    rw [stepWith] at found
    cases there : root.at? here with
    | none => simp [there] at found
    | some m =>
      simp only [there, Except.ok.injEq, Spot.found.injEq] at found
      obtain ⟨rfl, rfl⟩ := found
      exact .ends there
  | cons part rest ih =>
    obtain ⟨entries, directory⟩ : ∃ entries, root.at? here = some (.dir entries) := by
      rw [stepWith] at found
      split at found
      · next entries directory => exact ⟨entries, directory⟩
      · cases found
      · cases found
    by_cases onTheSpot : part = "."
    · subst onTheSpot
      rw [stepWith, directory] at found
      exact .here directory (ih (by simpa using found))
    by_cases up : part = ".."
    · subst up
      rw [stepWith, directory] at found
      exact .above directory (ih (by simpa using found))
    by_cases long : nameLimit < part.utf8ByteSize
    · simp [stepWith, directory, onTheSpot, up, long] at found
    have isStep : IsStep part := ⟨onTheSpot, up, Nat.not_lt.mp long⟩
    cases there : root.at? (here ++ [part]) with
    | none =>
      -- A free name is no node, whether it is the last one or not.
      rw [Node.at?_concat directory] at there
      simp only [stepWith, directory, if_neg onTheSpot, if_neg up, if_neg long, there] at found
      split at found <;> cases found
    | some m =>
      rw [stepWith_entry directory isStep there] at found
      cases m with
      | file data => exact .entry directory isStep there (by simp) (ih found)
      | dir es => exact .entry directory isStep there (by simp) (ih found)
      | link target =>
        dsimp only at found
        split at found
        · next last =>
          obtain ⟨rfl, unfollowed⟩ := last
          cases found
          exact .last directory isStep there (by simpa using unfollowed)
        · next goes =>
          obtain ⟨fewer, rfl, some, onward⟩ := links _ _ _ found
          exact .link directory isStep there (by simpa using goes) some onward

/-- A way is where the steps lead to, and the other way round. -/
theorem way_iff : stepWith root follow (expandLink root follow budget) here parts =
    .ok (.found loc n) ↔ Way root follow budget here parts loc n := by
  constructor
  · intro found
    refine way_of_stepWith (fun here target rest behind => ?_) found
    clear found
    induction budget generalizing here target rest with
    | zero => cases behind
    | succ budget ih =>
      rw [expandLink] at behind
      split at behind
      · cases behind
      · next some => exact ⟨budget, rfl, some, way_of_stepWith ih behind⟩
  · intro way
    induction way with
    | ends there => rw [stepWith, there]
    | here directory _ ih => rw [stepWith, directory]; simpa using ih
    | above directory _ ih => rw [stepWith, directory]; simpa using ih
    | @entry _ _ _ _ _ m _ _ directory isStep there plain _ ih =>
      rw [stepWith_entry directory isStep there]
      cases m with
      | file data => exact ih
      | dir es => exact ih
      | link target => exact absurd rfl (plain target)
    | last directory isStep there unfollowed =>
      rw [stepWith_entry directory isStep there]
      simp [unfollowed]
    | link directory isStep there followed some _ ih =>
      rw [stepWith_entry directory isStep there]
      dsimp only
      rw [if_neg (by simpa using followed), expandLink, if_neg some]
      exact ih

namespace Way

/-- What a way leads to is there. -/
theorem at? (way : Way root follow budget here parts loc n) : root.at? loc = some n := by
  induction way with
  | ends there => exact there
  | here _ _ ih => exact ih
  | above _ _ ih => exact ih
  | entry _ _ _ _ _ ih => exact ih
  | last _ _ there _ => exact there
  | link _ _ _ _ _ _ ih => exact ih

/-- A way ends where it starts, or there is a directory. -/
theorem start (way : Way root follow budget here parts loc n) :
    loc = here ∨ ∃ entries, root.at? here = some (.dir entries) := by
  cases way with
  | ends _ => exact .inl rfl
  | here directory _ => exact .inr ⟨_, directory⟩
  | above directory _ => exact .inr ⟨_, directory⟩
  | entry directory _ _ _ _ => exact .inr ⟨_, directory⟩
  | last directory _ _ _ => exact .inr ⟨_, directory⟩
  | link directory _ _ _ _ _ => exact .inr ⟨_, directory⟩

/-- A last step on the spot can be left out. -/
theorem of_here (way : Way root true budget here (parts ++ ["."]) loc n) :
    Way root true budget here parts loc n := by
  generalize longer : parts ++ ["."] = all at way
  induction way generalizing parts with
  | ends _ => simp at longer
  | here directory onward ih =>
    cases parts with
    | nil =>
      cases longer
      exact onward
    | cons part parts =>
      obtain ⟨rfl, rest⟩ := List.cons.inj longer
      exact .here directory (ih rest)
  | above directory _ ih =>
    cases parts with
    | nil => simp at longer
    | cons part parts =>
      obtain ⟨rfl, rest⟩ := List.cons.inj longer
      exact .above directory (ih rest)
  | entry directory isStep there plain _ ih =>
    cases parts with
    | nil => exact absurd (List.cons.inj longer).1.symm isStep.here
    | cons part parts =>
      obtain ⟨rfl, rest⟩ := List.cons.inj longer
      exact .entry directory isStep there plain (ih rest)
  | last _ _ _ unfollowed => cases unfollowed
  | link directory isStep there _ some _ ih =>
    cases parts with
    | nil => exact absurd (List.cons.inj longer).1.symm isStep.here
    | cons part parts =>
      obtain ⟨rfl, rfl⟩ := List.cons.inj longer
      exact .link directory isStep there (fun _ => rfl) some (ih (List.append_assoc ..))

/-- Last steps on the spot can be left out. -/
theorem of_idle {idle : List String} (still : ∀ part ∈ idle, part = ".")
    (way : Way root true budget here (parts ++ idle) loc n) :
    Way root true budget here parts loc n := by
  induction idle using List.reverseRecOn with
  | nil => rwa [List.append_nil] at way
  | append_singleton idle part ih =>
    obtain rfl := still part (by simp)
    rw [← List.append_assoc] at way
    exact ih (fun part hpart => still part (List.mem_append_left _ hpart)) way.of_here

/-- There is one thing that parts lead to. -/
theorem unique {loc' : List String} {m : Node} (way : Way root follow budget here parts loc n)
    (way' : Way root follow budget here parts loc' m) : loc' = loc ∧ m = n := by
  have same := (way_iff.mpr way').symm.trans (way_iff.mpr way)
  simpa using same

/-- Where no last link is followed, a name for a last part is an entry of the directory that the
parts before it lead to. -/
theorem last_entry {name : String} (other : name ≠ "." ∧ name ≠ "..")
    (way : Way root false budget here (parts ++ [name]) loc n) :
    ∃ dir entries, Way root true budget here parts dir (.dir entries) ∧ loc = dir ++ [name] := by
  generalize longer : parts ++ [name] = all at way
  induction way generalizing parts with
  | ends _ => simp at longer
  | here directory _ ih =>
    cases parts with
    | nil => exact absurd (List.cons.inj longer).1 other.1
    | cons part parts =>
      obtain ⟨rfl, rest⟩ := List.cons.inj longer
      obtain ⟨dir, entries, way, ends⟩ := ih rest
      exact ⟨dir, entries, .here directory way, ends⟩
  | above directory _ ih =>
    cases parts with
    | nil => exact absurd (List.cons.inj longer).1 other.2
    | cons part parts =>
      obtain ⟨rfl, rest⟩ := List.cons.inj longer
      obtain ⟨dir, entries, way, ends⟩ := ih rest
      exact ⟨dir, entries, .above directory way, ends⟩
  | entry directory isStep there plain onward ih =>
    cases parts with
    | nil =>
      cases longer
      cases onward
      exact ⟨_, _, .ends directory, rfl⟩
    | cons part parts =>
      obtain ⟨rfl, rest⟩ := List.cons.inj longer
      obtain ⟨dir, entries, way, ends⟩ := ih rest
      exact ⟨dir, entries, .entry directory isStep there plain way, ends⟩
  | last directory _ _ _ =>
    cases parts with
    | nil =>
      cases longer
      exact ⟨_, _, .ends directory, rfl⟩
    | cons part parts => simp at longer
  | link directory isStep there followed some _ ih =>
    cases parts with
    | nil => cases followed (List.cons.inj longer).2.symm
    | cons part parts =>
      obtain ⟨rfl, rfl⟩ := List.cons.inj longer
      obtain ⟨dir, entries, way, ends⟩ := ih (List.append_assoc ..)
      exact ⟨dir, entries, .link directory isStep there (fun _ => rfl) some way, ends⟩

/-- A way that ends at a directory goes on there. Its last part is not the last any more, so it
is followed in any case. -/
theorem goesOn {more : List String} (way : Way root true budget here parts loc (.dir entries))
    (some : more ≠ []) {last : List String}
    (onward : ∀ budget, Way root follow budget loc more last n) :
    Way root follow budget here (parts ++ more) last n := by
  generalize reached : Node.dir entries = d at way
  induction way with
  | ends _ => exact onward _
  | here directory _ ih => exact .here directory (ih onward reached)
  | above directory _ ih => exact .above directory (ih onward reached)
  | entry directory isStep there plain _ ih =>
    exact .entry directory isStep there plain (ih onward reached)
  | last _ _ _ unfollowed => cases unfollowed
  | link directory isStep there _ named _ ih =>
    have rest := ih onward reached
    rw [List.append_assoc] at rest
    exact .link directory isStep there (fun none => absurd (List.append_eq_nil_iff.mp none).2 some)
      named rest

/-- If the last link is not followed, a way leads to the same, or to this link. -/
theorem unfollowed (way : Way root true budget here parts loc n) :
    ∃ loc m, Way root false budget here parts loc m ∧ (m = n ∨ ∃ target, m = .link target) := by
  induction way with
  | ends there => exact ⟨_, _, .ends there, .inl rfl⟩
  | here directory _ ih =>
    obtain ⟨loc, m, way, ends⟩ := ih
    exact ⟨loc, m, .here directory way, ends⟩
  | above directory _ ih =>
    obtain ⟨loc, m, way, ends⟩ := ih
    exact ⟨loc, m, .above directory way, ends⟩
  | entry directory isStep there plain _ ih =>
    obtain ⟨loc, m, way, ends⟩ := ih
    exact ⟨loc, m, .entry directory isStep there plain way, ends⟩
  | last _ _ _ unfollowed => cases unfollowed
  | @link _ _ rest _ _ target _ _ directory isStep there _ some _ ih =>
    cases rest with
    | nil => exact ⟨_, _, .last directory isStep there rfl, .inr ⟨target, rfl⟩⟩
    | cons part rest =>
      obtain ⟨loc, m, way, ends⟩ := ih
      exact ⟨loc, m, .link directory isStep there (by simp) some way, ends⟩

/-- A way to something that is no link leads there as well if the last link is followed. -/
theorem followed (way : Way root false budget here parts loc n)
    (plain : ∀ target, n ≠ .link target) : Way root true budget here parts loc n := by
  induction way with
  | ends there => exact .ends there
  | here directory _ ih => exact .here directory (ih plain)
  | above directory _ ih => exact .above directory (ih plain)
  | entry directory isStep there one _ ih => exact .entry directory isStep there one (ih plain)
  | last _ _ _ _ => exact absurd rfl (plain _)
  | link directory isStep there _ some _ ih =>
    exact .link directory isStep there (fun _ => rfl) some (ih plain)

end Way

end ways

/-! ## Paths -/

section paths

variable {fs : Files} {follow : Bool} {path : String} {loc : List String} {n : Node}

theorem node_eq_ok_iff :
    fs.node follow path = .ok n ↔ ∃ loc, fs.resolve follow path = .ok (.found loc n) := by
  unfold node
  cases fs.resolve follow path with
  | error f => simp
  | ok spot => cases spot <;> simp

/-- A path that can be looked at at all. -/
structure IsPath (path : String) : Prop where
  text : Terminated.hasNul path = false
  some : path ≠ ""
  short : path.utf8ByteSize ≤ pathLimit

theorem isPath_of_resolve {spot : Spot} (found : fs.resolve follow path = .ok spot) :
    IsPath path := by
  unfold resolve at found
  split at found
  · cases found
  next text =>
  split at found
  · cases found
  next some =>
  split at found
  · cases found
  next short => exact ⟨Bool.eq_false_iff.mpr text, some, Nat.not_lt.mp short⟩

/-- A path denotes what its steps lead to. -/
theorem resolve_eq_found_iff : fs.resolve follow path = .ok (.found loc n) ↔
    IsPath path ∧
      Way fs.root follow linkLimit (origin fs.cwd path) (stepsOf path) loc n := by
  constructor
  · intro found
    have isPath := isPath_of_resolve found
    rw [resolve, if_neg (Bool.eq_false_iff.mp isPath.text), if_neg isPath.some,
      if_neg (Nat.not_lt.mpr isPath.short)] at found
    exact ⟨isPath, way_iff.mp found⟩
  · rintro ⟨isPath, way⟩
    rw [resolve, if_neg (Bool.eq_false_iff.mp isPath.text), if_neg isPath.some,
      if_neg (Nat.not_lt.mpr isPath.short)]
    exact way_iff.mpr way

/-- What a path denotes is there. -/
theorem at?_of_resolve (found : fs.resolve follow path = .ok (.found loc n)) :
    fs.root.at? loc = some n :=
  (resolve_eq_found_iff.mp found).2.at?

/-- If its last link is not followed, a path denotes the same, or this link. -/
theorem node_unfollowed (found : fs.node true path = .ok n) :
    fs.node false path = .ok n ∨ ∃ target, fs.node false path = .ok (.link target) := by
  obtain ⟨loc, found⟩ := node_eq_ok_iff.mp found
  obtain ⟨isPath, way⟩ := resolve_eq_found_iff.mp found
  obtain ⟨loc', m, way', ends⟩ := way.unfollowed
  have denoted := node_eq_ok_iff.mpr ⟨loc', resolve_eq_found_iff.mpr ⟨isPath, way'⟩⟩
  rcases ends with rfl | ⟨target, rfl⟩
  · exact .inl denoted
  · exact .inr ⟨target, denoted⟩

/-- A path that denotes something else than a link denotes it as well if links are followed. -/
theorem node_followed (found : fs.node false path = .ok n) (plain : ∀ target, n ≠ .link target) :
    fs.node true path = .ok n := by
  obtain ⟨loc, found⟩ := node_eq_ok_iff.mp found
  obtain ⟨isPath, way⟩ := resolve_eq_found_iff.mp found
  exact node_eq_ok_iff.mpr ⟨loc, resolve_eq_found_iff.mpr ⟨isPath, way.followed plain⟩⟩

/-- A path that leads to no link denotes at the same place what it does if links are followed. -/
theorem resolve_unfollowed (found : fs.resolve true path = .ok (.found loc n))
    (plain : ∀ target, fs.node false path ≠ .ok (.link target)) :
    fs.resolve false path = .ok (.found loc n) := by
  obtain ⟨isPath, way⟩ := resolve_eq_found_iff.mp found
  obtain ⟨loc', m, way', -⟩ := way.unfollowed
  have found' := resolve_eq_found_iff.mpr ⟨isPath, way'⟩
  have followed : Way fs.root true linkLimit (origin fs.cwd path) (stepsOf path) loc' m :=
    way'.followed fun target link => plain target (link ▸ node_eq_ok_iff.mpr ⟨loc', found'⟩)
  obtain ⟨rfl, rfl⟩ := way.unique followed
  exact found'

end paths

/-! ## Directories in the way -/

section directories

variable {root : Node} {follow : Bool}

/-- Steps do not fail because of a directory, if this is so behind links. -/
theorem stepWith_ne_isDirectory
    {expand : List String → String → List String → Except Fault Spot}
    (links : ∀ here target rest, expand here target rest ≠ .error .isDirectory)
    (here parts : List String) : stepWith root follow expand here parts ≠ .error .isDirectory := by
  induction parts generalizing here with
  | nil =>
    rw [stepWith]
    split <;> simp
  | cons part rest ih =>
    rw [stepWith]
    split
    · split
      · exact ih _
      split
      · exact ih _
      split
      · simp
      split
      · split <;> simp
      · split
        · simp
        · exact links _ _ _
      · exact ih _
    · simp
    · simp

theorem expandLink_ne_isDirectory (root : Node) (follow : Bool) (budget : Nat)
    (here : List String) (target : String) (rest : List String) :
    expandLink root follow budget here target rest ≠ .error .isDirectory := by
  induction budget generalizing here target rest with
  | zero => simp [expandLink]
  | succ budget ih =>
    rw [expandLink]
    split
    · simp
    · exact stepWith_ne_isDirectory ih _ _

theorem node_ne_isDirectory (fs : Files) (follow : Bool) (path : String) :
    fs.node follow path ≠ .error .isDirectory := by
  have never : fs.resolve follow path ≠ .error .isDirectory := by
    unfold resolve
    split
    · simp
    split
    · simp
    split
    · simp
    exact stepWith_ne_isDirectory (expandLink_ne_isDirectory _ _ _) _ _
  unfold node
  cases reached : fs.resolve follow path with
  | error f =>
    rintro ⟨⟩
    exact never reached
  | ok spot => cases spot <;> simp

/-- A path can be read, or it denotes a directory, where it denotes something. -/
theorem present_eq (fs : Files) (path : String) : fs.present path =
    match fs.read path with
    | .ok _ => true
    | .error f => f = .isDirectory := by
  have never := fs.node_ne_isDirectory true path
  unfold present read
  cases denoted : fs.node true path with
  | error f =>
    have other : f ≠ .isDirectory := fun same => never (same ▸ denoted)
    simp [Except.toOption, other]
  | ok n => cases n <;> simp [Except.toOption]

end directories

end PluginHost.Files
