import PluginHost.Manifest.Basic
import PluginHost.Proofs.PluginId.Pattern
import PluginHost.Proofs.Version

/-!
# The problems of manifests

What is wrong with a manifest is said part by part: the id, the name, the version and the
capabilities, in this order. A part reports nothing if it is as it should be and one problem if
it is not, and an unknown capability is reported as often as it is named. So no problem hides
another one.

* `Reports` is what a part reports.

Results:
1. `unknown_ofNames`: the names that are reported are those of no capability, in order.
2. `manifest_problems_exact`: the problems of a manifest, and that there are none if and only if
   every part is as it should be.
-/

namespace PluginHost.Manifest

open PluginId (IsReverseDomain)
open Version (IsSemantic)

/-- A part reports nothing if it is good, and one problem if it is not. -/
def Reports (good : Prop) (p : Problem) (ps : List Problem) : Prop :=
  (good → ps = []) ∧ (¬good → ps = [p])

/-- There is more than white space in the text. -/
def IsSolid (s : String) : Prop :=
  ∃ c ∈ s.toList, Blank.isBlank c = false

/-- The names of the capabilities. -/
def known : List String :=
  Capability.all.map Capability.name

variable {m : Manifest} {s : String} {good : Prop} {p : Problem} {ps : List Problem}

/-! ## One part -/

theorem Reports.eq_nil_iff (reports : Reports good p ps) : ps = [] ↔ good := by
  refine ⟨fun nothing => ?_, reports.1⟩
  by_contra bad
  rw [reports.2 bad] at nothing
  cases nothing

theorem isSolid_iff : IsSolid s ↔ Blank.allBlank s = false := by
  rw [Blank.allBlank, List.all_eq_false, IsSolid]
  simp only [Bool.not_eq_true]

/-- A check that first asks whether there is anything to check reports one problem of two. -/
theorem reports_of_solid {missing bad : Problem} {ok : Bool} (solid : ok = true → IsSolid s) :
    Reports (ok = true) (if Blank.allBlank s then missing else bad)
      (if Blank.allBlank s then [missing] else if ok then [] else [bad]) := by
  by_cases blank : Blank.allBlank s = true
  · rw [if_pos blank, if_pos blank]
    refine ⟨fun good => ?_, fun _ => rfl⟩
    rw [isSolid_iff.mp (solid good)] at blank
    cases blank
  · rw [if_neg blank, if_neg blank]
    exact ⟨fun good => if_pos good, fun bad => if_neg bad⟩

/-- A plugin id is not blank. -/
theorem isSolid_of_isValid (valid : PluginId.isValid s = true) : IsSolid s := by
  obtain ⟨several, whole⟩ := PluginId.isValid_iff.mp valid
  obtain ⟨c, hc⟩ : ∃ c, c ∈ s.toList := by
    refine List.exists_mem_of_ne_nil _ fun empty => ?_
    rw [empty] at several
    exact absurd several (by decide)
  exact ⟨c, hc, (PluginId.plain_of_isInner (PluginId.mem_of_isValid valid c hc)).2.1⟩

/-- A version is not blank: it starts with a digit. -/
theorem isSolid_of_isSemantic (semantic : IsSemantic s.toList) : IsSolid s := by
  obtain ⟨major, minor, patch, pre, build, number, -, -, -, -, text⟩ := semantic
  obtain ⟨c, hc⟩ := List.exists_mem_of_ne_nil _ number.nonempty
  refine ⟨c, ?_, Ascii.isBlank_of_isDigit (number.digits c hc)⟩
  rw [text]
  exact List.mem_append_left _ hc

theorem idProblems_reports : Reports (IsReverseDomain m.id)
    (if Blank.allBlank m.id then .missingId else .badId m.id) m.idProblems := by
  rw [← PluginId.isValid_iff]
  exact reports_of_solid isSolid_of_isValid

theorem nameProblems_reports : Reports (IsSolid m.name) .missingName m.nameProblems := by
  rw [isSolid_iff, nameProblems]
  cases Blank.allBlank m.name <;> simp [Reports]

theorem versionProblems_reports : Reports (IsSemantic m.version.toList)
    (if Blank.allBlank m.version then .missingVersion else .badVersion m.version)
    m.versionProblems := by
  rw [← Version.ofText?_isSome_iff]
  exact reports_of_solid fun read => isSolid_of_isSemantic (Version.ofText?_isSome_iff.mp read)

/-! ## Capabilities -/

theorem ofName?_isSome_iff : (Capability.ofName? s).isSome = true ↔ s ∈ known := by
  simp only [Option.isSome_iff_exists, Capability.ofName?_eq_some_iff, known, List.mem_map]
  exact ⟨fun ⟨c, same⟩ => ⟨c, c.mem_all, same.symm⟩, fun ⟨c, _, same⟩ => ⟨c, same.symm⟩⟩

/-- The names that are reported are those of no capability, in order. -/
theorem unknown_ofNames (names : List String) :
    (Mask.ofNames names).2 = names.filter (· ∉ known) := by
  induction names with
  | nil => rfl
  | cons name names ih =>
    have found := ofName?_isSome_iff (s := name)
    rw [Mask.ofNames]
    cases search : Capability.ofName? name with
    | some c =>
      rw [search] at found
      rw [List.filter_cons_of_neg (by simpa using found.mp rfl)]
      exact ih
    | none =>
      rw [search] at found
      rw [List.filter_cons_of_pos (by simpa using found.not.mp (by decide))]
      exact congrArg (name :: ·) ih

/-- A manifest has no problem if and only if its id is a reverse-domain id, its name is not
blank, its version is a semantic version and every capability is one of the ten. Else it has one
problem for the id if that is bad, one for the name, one for the version, and one for each time
that a capability is named that there is none of, in this order and no others. A version that
is read from a manifest has the text that stands there. -/
theorem manifest_problems_exact (m : Manifest) :
    (m.problems = [] ↔ IsReverseDomain m.id ∧ (∃ c ∈ m.name.toList, Blank.isBlank c = false) ∧
      IsSemantic m.version.toList ∧
      ∀ name ∈ m.capabilities, name ∈ Capability.all.map Capability.name) ∧
    (∃ ids names versions,
      Reports (IsReverseDomain m.id)
        (if Blank.allBlank m.id then .missingId else .badId m.id) ids ∧
      Reports (∃ c ∈ m.name.toList, Blank.isBlank c = false) .missingName names ∧
      Reports (IsSemantic m.version.toList)
        (if Blank.allBlank m.version then .missingVersion else .badVersion m.version) versions ∧
      m.problems = ids ++ names ++ versions ++
        (m.capabilities.filter (· ∉ Capability.all.map Capability.name)).map
          .unknownCapability) ∧
    ∀ v, m.semver? = some v → v.text = m.version := by
  have capabilities : m.capabilityProblems = (m.capabilities.filter (· ∉ known)).map
      .unknownCapability := by
    rw [capabilityProblems, unknown_ofNames]
  refine ⟨?_, ⟨_, _, _, idProblems_reports, nameProblems_reports, versionProblems_reports, ?_⟩,
    fun v read => (Version.ofText?_eq_some_iff.mp read).2.symm⟩
  · rw [problems, capabilities]
    simp only [List.append_eq_nil_iff, idProblems_reports.eq_nil_iff,
      nameProblems_reports.eq_nil_iff, versionProblems_reports.eq_nil_iff, List.map_eq_nil_iff,
      List.filter_eq_nil_iff, decide_eq_true_eq, Decidable.not_not, and_assoc]
    rfl
  · rw [problems, capabilities]
    rfl

/-- A manifest in which nothing but the version is as it should be. -/
def faulty : Manifest where
  id := "org..test"
  name := "\t"
  version := "10.0.0-0a.0.-+007"
  capabilities := ["mind-control", "storage-read", "Storage-Read", "mind-control"]

/-- Every fault is reported, and the version is written as it stands in the manifest. -/
theorem faulty_manifest_problems :
    faulty.problems = [.badId "org..test", .missingName, .unknownCapability "mind-control",
      .unknownCapability "Storage-Read", .unknownCapability "mind-control"] ∧
    Version.text ⟨10, 0, 0, ["0a", "0", "-"], ["007"]⟩ = faulty.version := by
  have found : faulty.problems = [.badId "org..test", .missingName,
      .unknownCapability "mind-control", .unknownCapability "Storage-Read",
      .unknownCapability "mind-control"] := by decide +kernel
  have read : faulty.semver? = some ⟨10, 0, 0, ["0a", "0", "-"], ["007"]⟩ := by decide +kernel
  exact ⟨found, (manifest_problems_exact faulty).2.2 _ read⟩

end PluginHost.Manifest
