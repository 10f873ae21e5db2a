import PluginHost.Proofs.Files.Entries
import PluginHost.Proofs.Trust.Decision

/-!
# Entries that are meant as a sidecar

Whether a module has a sidecar manifest is decided by following the path of the manifest. The
directory of the module may have an entry of this name, and the path still lead nowhere: then
the module passes for one without a sidecar.

* `Sidecar.directory` and `Sidecar.entryName` say where the manifest of a module would be.

Results:
1. `Sidecar.isName_entryName`: its name is a name of its own, if it is not too long.
2. `Gate.absent_iff_of_entry`: only a link that leads nowhere, or a path that is too long, makes
   an entry pass for none.
3. `sidecar_entry_decides`: what that means for the gate.
-/

namespace PluginHost

/-! ## Definitions -/

namespace Sidecar

/-- The directory in which the manifest of a module is looked for. -/
def directory (module : String) : String :=
  Files.orHere ((Path.parent? module).getD ".")

/-- The name that the manifest of a module has there. -/
def entryName (module : String) : String :=
  (Path.stem? module).getD "" ++ ".manifest.json"

end Sidecar

/-! ## Names -/

namespace Path

/-- What stands before the last dot of a name has no character that the name has not. -/
theorem mem_of_mem_cutAtDot {name : List Char} {c : Char} (hc : c ∈ (cutAtDot name).1)
    (other : c ≠ '.') : c ∈ name := by
  unfold cutAtDot at hc
  split at hc
  · next last before more split =>
    dsimp only at hc
    split at hc
    · exact hc
    · rcases mem_of_mem_joinWith hc with same | ⟨part, hpart, hc⟩
      · exact absurd same other
      · have there : part ∈ splitOn '.' name := by
          rw [← List.mem_reverse, split]
          exact List.mem_cons_of_mem _ (List.mem_reverse.mp hpart)
        exact (mem_of_mem_splitOn there hc).1
  · exact hc

/-- There is no `/` in the stem of a path. -/
theorem not_mem_stem {path stem : String} (hstem : stem? path = some stem) :
    '/' ∉ stem.toList := by
  obtain ⟨name, hname, rfl⟩ := Option.map_eq_some_iff.mp hstem
  rw [String.toList_ofList]
  intro slash
  exact (isSegment_of_fileName? hname).plain (mem_of_mem_cutAtDot slash (by decide))

end Path

section follow

-- From here on paths are not taken apart, so reduction stops before it.
attribute [local irreducible] Path.stem? Path.parent? Path.join Files.node

namespace Sidecar

theorem manifest_eq (module : String) : (ofModule module).manifest =
    Path.join ((Path.parent? module).getD ".") (entryName module) :=
  rfl

/-- The manifest of a module has a name of its own, if a directory can hold it at all. -/
theorem isName_entryName {module : String} (text : Terminated.hasNul (entryName module) = false)
    (short : (entryName module).utf8ByteSize ≤ Files.nameLimit) :
    Files.IsName (entryName module) := by
  have chars : (entryName module).toList =
      ((Path.stem? module).getD "").toList ++ ".manifest.json".toList := String.toList_append
  have long : 14 ≤ (entryName module).toList.length := by
    rw [chars, List.length_append]
    exact Nat.le_add_left _ _
  have other {name : String} (few : name.toList.length < 14) : entryName module ≠ name :=
    fun same => Nat.not_lt.mpr long (same ▸ few)
  have plain : '/' ∉ (entryName module).toList := by
    rw [chars, List.mem_append]
    rintro (slash | slash)
    · cases stem : Path.stem? module with
      | none => simp [stem] at slash
      | some name =>
        rw [stem] at slash
        exact Path.not_mem_stem stem slash
    · exact absurd slash (by decide)
  exact ⟨other (by decide), other (by decide), other (by decide), plain, text, short⟩

end Sidecar

/-! ## Entries -/

variable {module : String} {fs : Files} {entries : List (String × Files.Node)}
  {entry : Files.Node}

/-- An entry passes for none if the path is too long, or it is a link that leads nowhere. -/
theorem Gate.absent_iff_of_entry
    (directory : fs.node true (Sidecar.directory module) = .ok (.dir entries))
    (there : Files.find? (Sidecar.entryName module) entries = some entry)
    (text : Terminated.hasNul (Sidecar.entryName module) = false)
    (short : (Sidecar.entryName module).utf8ByteSize ≤ Files.nameLimit) :
    Absent module fs ↔
      Files.pathLimit < (Sidecar.ofModule module).manifest.utf8ByteSize ∨
        ∃ target, entry = .link target ∧ Absent module fs := by
  constructor
  · intro absent
    by_cases long : Files.pathLimit < (Sidecar.ofModule module).manifest.utf8ByteSize
    · exact .inl long
    by_cases link : ∃ target, entry = .link target
    · obtain ⟨target, is⟩ := link
      exact .inr ⟨target, is, absent⟩
    · have tight := Nat.not_lt.mp long
      rw [Sidecar.manifest_eq] at tight
      have found := Files.node_join (Sidecar.isName_entryName text short) tight directory there
        (not_exists.mp link)
      rw [← Sidecar.manifest_eq] at found
      exact absurd found (absent entry)
  · rintro (long | ⟨-, -, absent⟩)
    · intro n found
      obtain ⟨loc, found⟩ := Files.node_eq_ok_iff.mp found
      exact Nat.not_le.mpr long (Files.isPath_of_resolve found).short
    · exact absent

/-- A module whose directory has an entry for its manifest, whatever it is, is let in unsigned
exactly if signatures are not required, and the path of the manifest is too long to be followed
or the entry is a link that leads nowhere. A file, a directory and a link that leads somewhere
close the gate to a module that is not verified. -/
theorem sidecar_entry_decides (g : Gate)
    (directory : fs.node true (Sidecar.directory module) = .ok (.dir entries))
    (there : Files.find? (Sidecar.entryName module) entries = some entry)
    (text : Terminated.hasNul (Sidecar.entryName module) = false)
    (short : (Sidecar.entryName module).utf8ByteSize ≤ Files.nameLimit) :
    (g.check module fs).1 = .ok .unsigned ↔ g.requireSignatures = false ∧
      (Files.pathLimit < (Sidecar.ofModule module).manifest.utf8ByteSize ∨
        ∃ target, entry = .link target ∧
          ∀ n, fs.node true (Sidecar.ofModule module).manifest ≠ .ok n) := by
  rw [Gate.check_unsigned_iff, Gate.absent_iff_of_entry directory there text short, and_comm]
  rfl

end follow

/-- A directory that is named like the manifest of a module closes every gate to it. -/
theorem directory_entry_closes :
    let fs : Files := ⟨.dir [("d", .dir [("p.so", .file []), ("p.manifest.json", .dir [])])], []⟩
    fs.node true (Sidecar.directory "d/p.so") =
        .ok (.dir [("p.so", .file []), ("p.manifest.json", .dir [])]) ∧
      Sidecar.entryName "d/p.so" = "p.manifest.json" ∧
      ∀ g : Gate, (g.check "d/p.so" fs).1 ≠ .ok .unsigned := by
  intro fs
  have directory : fs.node true (Sidecar.directory "d/p.so") =
      .ok (.dir [("p.so", .file []), ("p.manifest.json", .dir [])]) := by
    rfl
  have name : Sidecar.entryName "d/p.so" = "p.manifest.json" := by decide +kernel
  refine ⟨directory, name, fun g unsigned => ?_⟩
  have decides := sidecar_entry_decides g directory (by rw [name]; rfl) (by rw [name]; decide)
    (by rw [name]; decide)
  obtain ⟨-, long | ⟨target, link, -⟩⟩ := decides.mp unsigned
  · exact absurd long (by decide +kernel)
  · cases link

/-- An entry for the manifest of a module does not keep the module from being let in unsigned:
a link whose target is missing does not, and neither does one that is its own target. -/
theorem dangling_entry_opens :
    ¬ (∀ (g : Gate) (module : String) (fs : Files) (entries : List (String × Files.Node))
      (entry : Files.Node), fs.node true (Sidecar.directory module) = .ok (.dir entries) →
        Files.find? (Sidecar.entryName module) entries = some entry →
          (g.check module fs).1 ≠ .ok .unsigned) ∧
      ∀ target ∈ ["missing.json", "p.manifest.json"],
        ((⟨Signature.ed25519, some "k.pub", false⟩ : Gate).check "p.so"
          ⟨.dir [("p.so", .file []), ("p.manifest.json", .link target)], []⟩).1 =
            .ok .unsigned := by
  have opens : ∀ target ∈ ["missing.json", "p.manifest.json"],
      ((⟨Signature.ed25519, some "k.pub", false⟩ : Gate).check "p.so"
        ⟨.dir [("p.so", .file []), ("p.manifest.json", .link target)], []⟩).1 =
          .ok .unsigned := by
    decide +kernel
  refine ⟨fun closes => ?_, opens⟩
  exact closes _ "p.so" _ _ _ (by rfl) (by rfl) (opens "missing.json" (by simp))

end PluginHost
