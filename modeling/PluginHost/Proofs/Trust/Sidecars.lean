import PluginHost.Proofs.Files.Candidates
import PluginHost.Proofs.Trust.Interference

/-!
# Sidecars of different modules

A module and its sidecar have one stem and lie in one directory. So modules with one extension that
are found by one scan have sidecars of their own: the paths differ, and so do the entries that they
lead to. Where an entry is a link, a file can still be the manifest of two modules.

* `Sidecar.beside` is a path beside a module.
* `Files.SidecarsApart` says how the sidecars of the candidates of a directory differ.

Results:
1. `Sidecar.parent?_beside` and `Sidecar.eq_of_components_beside`: the path of a sidecar tells the
   directory of its module, and the module.
2. `Files.location_beside` and `Files.eq_of_same_manifest`: where a sidecar is found, and that this
   tells its module.
3. `sidecars_stay_apart`: sidecars of the candidates of a directory.
4. `linked_sidecar_is_shared`: links let two modules in with one manifest.
-/

namespace PluginHost

open PluginHost.Path (components extension? fileName? folder parent? stem?)

/-! ## Definitions -/

namespace Sidecar

/-- What is put behind the stem of a module. -/
inductive IsSuffix : String → Prop
  | manifest : IsSuffix ".manifest.json"
  | signature : IsSuffix ".manifest.sig"

/-- The path beside a module that has its stem and a suffix. -/
def beside (module suffix : String) : String :=
  Path.join ((parent? module).getD ".") ((stem? module).getD "" ++ suffix)

end Sidecar

namespace Files

/-- The path leads to a link, if the last link is not followed. -/
def IsLink (fs : Files) (path : String) : Prop :=
  ∃ target, fs.node false path = .ok (.link target)

/-- How the sidecars of the candidates of a directory differ. Paths that differ do so by their
components, so not only by idle parts.

* `beside`: a sidecar lies in the directory of its module, by their paths.
* `manifests` and `signatures`: manifests of different candidates have different paths, and so have
  signatures.
* `crossed`: no manifest has the path of a signature.
* `placed`: what the path of a sidecar leads to is an entry of the directory that the module is an
  entry of, if a last link is not followed.
* `alone`: one file is the manifest of different candidates only if one of them has a link for a
  manifest. -/
structure SidecarsApart (fs : Files) (dir extension : String) : Prop where
  beside : ∀ q ∈ fs.candidates dir extension,
    parent? (Sidecar.ofModule q).manifest = parent? q ∧
      parent? (Sidecar.ofModule q).signature = parent? q
  manifests : ∀ q ∈ fs.candidates dir extension, ∀ q' ∈ fs.candidates dir extension, q ≠ q' →
    components (Sidecar.ofModule q).manifest ≠ components (Sidecar.ofModule q').manifest
  signatures : ∀ q ∈ fs.candidates dir extension, ∀ q' ∈ fs.candidates dir extension, q ≠ q' →
    components (Sidecar.ofModule q).signature ≠ components (Sidecar.ofModule q').signature
  crossed : ∀ q ∈ fs.candidates dir extension, ∀ q' ∈ fs.candidates dir extension,
    components (Sidecar.ofModule q).manifest ≠ components (Sidecar.ofModule q').signature
  placed : ∀ loc entries, fs.resolve true dir = .ok (.found loc (.dir entries)) →
    ∀ q ∈ fs.candidates dir extension, ∃ names name data,
      (Node.dir entries).at? (names ++ [name]) = some (.file data) ∧
      q = below dir (names ++ [name]) ∧
      ∀ path ∈ [(Sidecar.ofModule q).manifest, (Sidecar.ofModule q).signature], ∀ found n,
        fs.resolve false path = .ok (.found found n) →
          ∃ entry, found = loc ++ names ++ [entry]
  alone : ∀ q ∈ fs.candidates dir extension, ∀ q' ∈ fs.candidates dir extension, q ≠ q' →
    ∀ file n n', fs.resolve true (Sidecar.ofModule q).manifest = .ok (.found file n) →
      fs.resolve true (Sidecar.ofModule q').manifest = .ok (.found file n') →
        fs.IsLink (Sidecar.ofModule q).manifest ∨ fs.IsLink (Sidecar.ofModule q').manifest

end Files

/-! ## Paths beside a module -/

namespace Sidecar

variable {q q' extension suffix suffix' : String}

theorem manifest_eq_beside (module : String) :
    (ofModule module).manifest = beside module ".manifest.json" := by
  rw [ofModule, beside]

theorem signature_eq_beside (module : String) :
    (ofModule module).signature = beside module ".manifest.sig" := by
  rw [ofModule, beside]

/-- The end of a name tells which suffix it has, and so what is before it. -/
theorem IsSuffix.inj {stem stem' : String} (isSuffix : IsSuffix suffix)
    (isSuffix' : IsSuffix suffix') (same : stem ++ suffix = stem' ++ suffix') :
    stem = stem' ∧ suffix = suffix' := by
  have last := congrArg (fun name => name.toList.getLast?) same
  cases isSuffix with
  | manifest =>
    cases isSuffix' with
    | manifest => exact ⟨(String.append_left_inj _).mp same, rfl⟩
    | signature => simp at last
  | signature =>
    cases isSuffix' with
    | manifest => simp at last
    | signature => exact ⟨(String.append_left_inj _).mp same, rfl⟩

/-- A stem and a suffix are a name of their own. -/
theorem IsSuffix.isSegment {stem : String} (isSuffix : IsSuffix suffix)
    (plain : '/' ∉ stem.toList) : Path.IsSegment (stem ++ suffix) ∧ stem ++ suffix ≠ ".." := by
  have long : 2 < suffix.toList.length := by cases isSuffix <;> decide
  have inside : '/' ∉ suffix.toList := by cases isSuffix <;> decide
  have other {name : String} (few : name.toList.length ≤ 2) : stem ++ suffix ≠ name := by
    rintro rfl
    rw [String.toList_append, List.length_append] at few
    omega
  refine ⟨⟨other (by decide), other (by decide), ?_⟩, other (by decide)⟩
  rw [String.toList_append, List.mem_append]
  exact not_or.mpr ⟨plain, inside⟩

/-- A sidecar is named by the stem of its module, and lies where the module does. -/
theorem beside_eq (ends : extension? q = some extension) : ∃ stem,
    fileName? q = some (stem ++ "." ++ extension) ∧ '/' ∉ stem.toList ∧
      ∀ suffix, beside q suffix = Path.join (folder q) (stem ++ suffix) := by
  obtain ⟨stem, -, stem?, named⟩ := Path.stem_of_extension? ends
  refine ⟨stem, named, fun slash => ?_, fun suffix => ?_⟩
  · exact (Path.isSegment_of_fileName? named).plain (by simp [slash])
  · rw [beside, Path.parent?_eq_folder named, stem?]
    rfl

/-- What is above a sidecar is what is above its module. -/
theorem parent?_beside (ends : extension? q = some extension) (isSuffix : IsSuffix suffix) :
    parent? (beside q suffix) = parent? q := by
  obtain ⟨stem, named, plain, eq⟩ := beside_eq ends
  obtain ⟨segment, other⟩ := isSuffix.isSegment plain
  rw [eq, Path.parent?_eq_folder (Path.fileName?_join segment other _), Path.folder_join segment,
    Path.trimmed_folder, Path.parent?_eq_folder named]

/-- Among modules with one extension, the path of a sidecar tells the module, and which of its two
sidecars it is. -/
theorem eq_of_components_beside (ends : extension? q = some extension)
    (ends' : extension? q' = some extension) (isSuffix : IsSuffix suffix)
    (isSuffix' : IsSuffix suffix')
    (same : components (beside q suffix) = components (beside q' suffix')) :
    components q = components q' ∧ suffix = suffix' := by
  obtain ⟨stem, named, plain, eq⟩ := beside_eq ends
  obtain ⟨stem', named', plain', eq'⟩ := beside_eq ends'
  rw [eq, eq', Path.components_join (isSuffix.isSegment plain).1,
    Path.components_join (isSuffix'.isSegment plain').1] at same
  obtain ⟨above, names⟩ := List.append_singleton_inj.mp same
  obtain ⟨rfl, rfl⟩ := isSuffix.inj isSuffix' names
  rw [Path.components_eq_folder named, Path.components_eq_folder named', above]
  exact ⟨rfl, rfl⟩

end Sidecar

/-! ## Sidecars of candidates -/

namespace Files

variable {fs : Files} {dir extension q q' : String} {loc : List String}
  {entries : List (String × Node)}

/-- Where the sidecars of a candidate are: in the directory that the candidate is an entry of. -/
theorem location_beside (proper : fs.root.Proper)
    (directory : fs.resolve true dir = .ok (.found loc (.dir entries)))
    (listed : q ∈ fs.candidates dir extension) : ∃ names stem data,
      (Node.dir entries).at? (names ++ [stem ++ "." ++ extension]) = some (.file data) ∧
        q = below dir (names ++ [stem ++ "." ++ extension]) ∧
        ∀ suffix, Sidecar.IsSuffix suffix → ∀ found n,
          fs.resolve false (Sidecar.beside q suffix) = .ok (.found found n) →
            found = loc ++ names ++ [stem ++ suffix] := by
  have properDir := (proper.at? (at?_of_resolve directory)).2
  have ends := extension?_of_mem_candidates listed
  obtain ⟨names, name, data, there, -, rfl⟩ :=
    (mem_candidates_iff properDir (node_eq_ok_iff.mpr ⟨loc, directory⟩)).mp listed
  obtain ⟨stem, named, plain, eq⟩ := Sidecar.beside_eq ends
  have isName := (properDir.at? there).1
  obtain rfl := Option.some.inj ((fileName?_below isName dir).symm.trans named)
  refine ⟨names, stem, data, there, rfl, fun suffix isSuffix found n denoted => ?_⟩
  obtain ⟨inner, holder⟩ := Node.dir_of_at?_concat there
  obtain ⟨segment, other⟩ := isSuffix.isSegment plain
  rw [eq, below_concat, Path.folder_join (isName _ (by simp)).isSegment] at denoted
  exact location_below (fun part hpart => isName part (List.mem_append_left _ hpart))
    (resolve_orHere directory) holder segment other denoted

/-- Different candidates have sidecars of different paths. -/
theorem components_beside_ne (proper : fs.root.Proper) (hq : q ∈ fs.candidates dir extension)
    (hq' : q' ∈ fs.candidates dir extension) (differ : q ≠ q') {suffix suffix' : String}
    (isSuffix : Sidecar.IsSuffix suffix) (isSuffix' : Sidecar.IsSuffix suffix') :
    components (Sidecar.beside q suffix) ≠ components (Sidecar.beside q' suffix') := fun same =>
  components_ne proper hq hq' differ (Sidecar.eq_of_components_beside
    (extension?_of_mem_candidates hq) (extension?_of_mem_candidates hq') isSuffix isSuffix' same).1

/-- What the manifest of a candidate is found to be, no last link followed, tells the candidate. -/
theorem eq_of_same_manifest (proper : fs.root.Proper)
    (directory : fs.resolve true dir = .ok (.found loc (.dir entries)))
    (hq : q ∈ fs.candidates dir extension) (hq' : q' ∈ fs.candidates dir extension)
    {file : List String} {n n' : Node}
    (found : fs.resolve false (Sidecar.ofModule q).manifest = .ok (.found file n))
    (found' : fs.resolve false (Sidecar.ofModule q').manifest = .ok (.found file n')) : q = q' := by
  obtain ⟨names, stem, _, -, rfl, placed⟩ := location_beside proper directory hq
  obtain ⟨names', stem', _, -, rfl, placed'⟩ := location_beside proper directory hq'
  rw [Sidecar.manifest_eq_beside] at found found'
  have here := placed _ .manifest file n found
  have there := placed' _ .manifest file n' found'
  obtain ⟨above, name⟩ := List.append_singleton_inj.mp (here.symm.trans there)
  rw [List.append_cancel_left above, (String.append_left_inj _).mp name]

end Files

/-- Candidates of a directory have sidecars of their own, each in the directory of its module. One
file is the manifest of different candidates only if one of them has a link for a manifest. -/
theorem sidecars_stay_apart (fs : Files) (dir extension : String) (proper : fs.root.Proper) :
    fs.SidecarsApart dir extension := by
  have ends {q : String} (hq : q ∈ fs.candidates dir extension) :
      extension? q = some extension :=
    Files.extension?_of_mem_candidates hq
  constructor
  case beside =>
    intro q hq
    rw [Sidecar.manifest_eq_beside, Sidecar.signature_eq_beside]
    exact ⟨Sidecar.parent?_beside (ends hq) .manifest, Sidecar.parent?_beside (ends hq) .signature⟩
  case manifests =>
    intro q hq q' hq' differ
    rw [Sidecar.manifest_eq_beside, Sidecar.manifest_eq_beside]
    exact Files.components_beside_ne proper hq hq' differ .manifest .manifest
  case signatures =>
    intro q hq q' hq' differ
    rw [Sidecar.signature_eq_beside, Sidecar.signature_eq_beside]
    exact Files.components_beside_ne proper hq hq' differ .signature .signature
  case crossed =>
    intro q hq q' hq' same
    rw [Sidecar.manifest_eq_beside, Sidecar.signature_eq_beside] at same
    have one := Sidecar.eq_of_components_beside (ends hq) (ends hq') .manifest .signature same
    exact absurd one.2 (by decide)
  case placed =>
    intro loc entries directory q hq
    obtain ⟨names, stem, data, there, same, placed⟩ := Files.location_beside proper directory hq
    refine ⟨names, _, data, there, same, fun path hpath found n denoted => ?_⟩
    rw [Sidecar.manifest_eq_beside, Sidecar.signature_eq_beside] at hpath
    rcases List.mem_pair.mp hpath with rfl | rfl
    · exact ⟨_, placed _ .manifest found n denoted⟩
    · exact ⟨_, placed _ .signature found n denoted⟩
  case alone =>
    intro q hq q' hq' differ file n n' found found'
    obtain ⟨loc, entries, directory⟩ := Files.directory_of_candidates hq hq' differ
    -- If neither is a link, both files are where their directories and names say.
    refine Classical.byContradiction fun plain => differ ?_
    obtain ⟨plain, plain'⟩ := not_or.mp plain
    exact Files.eq_of_same_manifest proper directory hq hq'
      (Files.resolve_unfollowed found (not_exists.mp plain))
      (Files.resolve_unfollowed found' (not_exists.mp plain'))

/-- Modules that stand beside their sidecars, in one directory and in another below it, and a
module that has none. -/
def Sidecar.paired : List (String × Files.Node) :=
  [("a.so", .file []), ("a.manifest.json", .file []), ("a.manifest.sig", .file []),
    ("a.b.so", .file []), ("a.b.manifest.json", .file []),
    ("a", .dir [("a.so", .file []), ("a.manifest.json", .file [])]), ("..so", .file [])]

/-- Modules have sidecars of their own where one stem goes on where another ends, and where two
stems are the same in different directories. -/
theorem paired_sidecars_stay_apart :
    let fs : Files := ⟨.dir [("p", .dir Sidecar.paired)], []⟩
    fs.root.Proper ∧ fs.SidecarsApart "p" "so" ∧
      fs.candidates "p" "so" = ["p/..so", "p/a/a.so", "p/a.b.so", "p/a.so"] ∧
      (fs.candidates "p" "so").map (fun q => (Sidecar.ofModule q).manifest) =
        ["p/..manifest.json", "p/a/a.manifest.json", "p/a.b.manifest.json",
          "p/a.manifest.json"] := by
  intro fs
  have file (data : List UInt8) := Files.Node.Proper.file data
  have inner : Files.Node.Proper (.dir [("a.so", .file []), ("a.manifest.json", .file [])]) :=
    .dir (by decide) (by decide) (by simp [file])
  have modules : Files.Node.Proper (.dir Sidecar.paired) :=
    .dir (by decide) (by decide +kernel) (by simp [Sidecar.paired, file, inner])
  have proper : fs.root.Proper := .dir (by decide) (by decide) (by simp [modules])
  exact ⟨proper, sidecars_stay_apart fs "p" "so" proper, by decide +kernel, by decide +kernel⟩

/-! ## Manifests that are links -/

/-- Two modules, of which one has links to the sidecars of the other. -/
def Sidecar.linked : Files :=
  ⟨.dir [("p", .dir [("a.so", .file []), ("a.manifest.json", .file Swapped.signed),
      ("a.manifest.sig", .file Swapped.signature), ("b.so", .file []),
      ("b.manifest.json", .link "a.manifest.json"), ("b.manifest.sig", .link "a.manifest.sig")]),
    ("k.pub", .file Swapped.key)], []⟩

/-- One file can be the manifest of two candidates: if the sidecars of one are links to those of
the other, both are let in with it. -/
theorem linked_sidecar_is_shared :
    ¬ (∀ (fs : Files) (dir extension : String), fs.root.Proper →
      ∀ q ∈ fs.candidates dir extension, ∀ q' ∈ fs.candidates dir extension, q ≠ q' →
        ∀ file n n', fs.resolve true (Sidecar.ofModule q).manifest = .ok (.found file n) →
          fs.resolve true (Sidecar.ofModule q').manifest ≠ .ok (.found file n')) ∧
    Sidecar.linked.candidates "p" "so" = ["p/a.so", "p/b.so"] ∧
    ∀ module ∈ Sidecar.linked.candidates "p" "so",
      (Swapped.gate.check module Sidecar.linked).1 =
        .ok (.verified { id := "a.b", version := "1" }) := by
  have file (data : List UInt8) := Files.Node.Proper.file data
  have link (target : String) := Files.Node.Proper.link target
  have modules : Files.Node.Proper (.dir [("a.so", .file []),
      ("a.manifest.json", .file Swapped.signed), ("a.manifest.sig", .file Swapped.signature),
      ("b.so", .file []), ("b.manifest.json", .link "a.manifest.json"),
      ("b.manifest.sig", .link "a.manifest.sig")]) :=
    .dir (by decide) (by decide +kernel) (by simp [file, link])
  have proper : Sidecar.linked.root.Proper := .dir (by decide) (by decide) (by simp [file, modules])
  have listed : Sidecar.linked.candidates "p" "so" = ["p/a.so", "p/b.so"] := by decide +kernel
  refine ⟨fun apart => ?_, listed, ?_⟩
  · have own := apart Sidecar.linked "p" "so" proper "p/a.so" (by simp [listed]) "p/b.so"
      (by simp [listed]) (by decide)
    exact own ["p", "a.manifest.json"] _ _ (by rfl) (by rfl)
  · rw [listed]
    decide +kernel

end PluginHost
