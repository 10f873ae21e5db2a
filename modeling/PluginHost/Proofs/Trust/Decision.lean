import PluginHost.Proofs.Signature.Verdict

/-!
# What becomes of a module

The gate lets a module in unsigned, lets it in with a manifest, or refuses it. Each of the
three is told apart by what the files hold before the verifier runs and after it, whatever
the verifier does to files.

* `Gate.Absent` and `Gate.Vouches` say when a module is let in, without the gate's own words.
* `Gate.Signed` says whose signature is behind a manifest, while another process writes it.

Results:
1. `Gate.check_unsigned_iff`, `Gate.check_verified_iff` and `Gate.check_refused`: the three.
2. `Gate.signed_of_verified`: under the built-in verifier the snapshot is what is signed, if
   the verifier has read what was in it.
3. `decision_is_exact`: all of this together.
-/

namespace PluginHost

/-! ## Definitions -/

namespace Gate

/-- The sidecar manifest of a module denotes nothing, links followed. -/
def Absent (module : String) (fs : Files) : Prop :=
  ∀ n, fs.node true (Sidecar.ofModule module).manifest ≠ .ok n

/-- `g.Vouches module fs d`: there is a sidecar manifest and a trusted key, the manifest holds
the same bytes before the verifier runs and after it, the verifier finds the signature valid,
and the bytes are those of `d`. -/
def Vouches (g : Gate) (module : String) (fs : Files) (d : Manifest) : Prop :=
  let sidecar := Sidecar.ofModule module
  ¬ Absent module fs ∧ ∃ key bytes, g.trustedKey = some key ∧
    fs.read sidecar.manifest = .ok bytes ∧
    (g.verifier sidecar.manifest sidecar.signature key fs).1 = .valid ∧
    (g.verifier sidecar.manifest sidecar.signature key fs).2.read sidecar.manifest = .ok bytes ∧
    Manifest.ofBytes bytes = .ok d

/-- `g.Signed scheme i module fs d`: under the trusted key, the signature file signs the
canonical form of the bytes that the snapshot has taken, and these are the bytes of `d`. The
signature and the key are what the verifier finds. -/
def Signed (g : Gate) (scheme : Signature.Scheme) (i : Interference) (module : String)
    (fs : Files) (d : Manifest) : Prop :=
  let sidecar := Sidecar.ofModule module
  ∃ key bytes s k, g.trustedKey = some key ∧
    (i.files sidecar fs .snapshot).read sidecar.manifest = .ok bytes ∧
    (i.files sidecar fs .signature).read sidecar.signature = .ok s ∧
    (i.files sidecar fs .key).read key = .ok k ∧
    Signature.Record.Holds scheme ⟨bytes, s, k⟩ ∧ Manifest.ofBytes bytes = .ok d

end Gate

/-! ## Letting in and refusing -/

namespace Gate

-- How paths and documents are taken apart plays no part here, so reduction stops before it.
attribute [local irreducible] Sidecar.ofModule Files.node Files.read Manifest.ofBytes
  Signature.Record.verdict

variable {g : Gate} {module : String} {fs : Files} {d : Manifest}

theorem absent_iff : Absent module fs ↔ (Sidecar.ofModule module).present fs = false := by
  unfold Absent Sidecar.present Files.present
  cases fs.node true (Sidecar.ofModule module).manifest <;> simp [Except.toOption]

/-- A module is let in unsigned if it has no sidecar manifest and needs none. -/
theorem check_unsigned_iff : (g.check module fs).1 = .ok .unsigned ↔
    Absent module fs ∧ g.requireSignatures = false := by
  rw [check_ok_iff, decide_unsigned_iff, absent_iff]

/-- A module is verified if the gate vouches for it. -/
theorem check_verified_iff :
    (g.check module fs).1 = .ok (.verified d) ↔ g.Vouches module fs d := by
  rw [check_ok_iff, decide_verified_iff, Vouches, absent_iff]
  simp only [Bool.not_eq_false, Signature.Outcome.isValid_iff]

/-- Any other module is refused under its path. -/
theorem check_refused (signed : ¬ (Absent module fs ∧ g.requireSignatures = false))
    (doubted : ∀ d, ¬ g.Vouches module fs d) :
    ∃ reason, (g.check module fs).1 = .error (.verification module reason) := by
  cases h : (g.check module fs).1 with
  | error e =>
    obtain ⟨r, -, rfl⟩ := check_error h
    exact ⟨_, rfl⟩
  | ok t =>
    cases t with
    | unsigned => exact absurd (check_unsigned_iff.mp h) signed
    | verified d => exact absurd (check_verified_iff.mp h) (doubted d)

/-! ## The built-in verifier -/

variable {scheme : Signature.Scheme} {i : Interference}

/-- If the verifier has read what the snapshot has taken, that is what is signed. -/
theorem signed_of_verified
    (unchanged : (i.files (Sidecar.ofModule module) fs .manifest).read
        (Sidecar.ofModule module).manifest =
      (i.files (Sidecar.ofModule module) fs .snapshot).read (Sidecar.ofModule module).manifest)
    (verified : g.decideAmid scheme i module fs = .ok (.verified d)) :
    g.Signed scheme i module fs d := by
  obtain ⟨-, key, bytes, r, hkey, hbytes, hseen, valid, -, hd⟩ :=
    decideAmid_verified_iff.mp verified
  obtain ⟨hm, hs, hk⟩ := Interference.seen_eq_ok hseen
  have same : r.manifest = bytes := Except.ok.inj (hm.symm.trans (unchanged.trans hbytes))
  refine ⟨key, bytes, r.signature, r.key, hkey, hbytes, hs, hk, ?_, hd⟩
  rw [← same]
  exact Signature.Record.verdict_eq_valid_iff.mp valid

/-- Where nothing is written, the manifest of a verified module is signed. -/
theorem signed_of_check (builtin : g.verifier = Signature.verifierOf scheme)
    (verified : (g.check module fs).1 = .ok (.verified d)) :
    g.Signed scheme (fun _ => []) module fs d := by
  refine signed_of_verified ?_ ?_
  · simp only [Interference.files_of_still]
  · rw [decideAmid_of_still, ← builtin]
    exact check_ok_iff.mp verified

end Gate

/-- The gate, with any verifier, over any files: a module is let in unsigned exactly if its
sidecar manifest denotes nothing and no signature is required, it is let in with a manifest
exactly if the gate vouches for it, and otherwise it is refused for its verification, under its
path. With the built-in verifier, a manifest that is let in is signed in the very bytes that
the snapshot has taken; while another process writes it, this takes no more than that the
verifier has read these bytes. -/
theorem decision_is_exact (g : Gate) (module : String) (fs : Files) :
    ((g.check module fs).1 = .ok .unsigned ↔
      Gate.Absent module fs ∧ g.requireSignatures = false) ∧
    (∀ d, (g.check module fs).1 = .ok (.verified d) ↔ g.Vouches module fs d) ∧
    (¬ (Gate.Absent module fs ∧ g.requireSignatures = false) →
      (∀ d, ¬ g.Vouches module fs d) →
      ∃ reason, (g.check module fs).1 = .error (.verification module reason)) ∧
    (∀ scheme d, g.verifier = Signature.verifierOf scheme →
      (g.check module fs).1 = .ok (.verified d) → g.Signed scheme (fun _ => []) module fs d) ∧
    (∀ scheme i d, (i.files (Sidecar.ofModule module) fs .manifest).read
        (Sidecar.ofModule module).manifest =
      (i.files (Sidecar.ofModule module) fs .snapshot).read (Sidecar.ofModule module).manifest →
      g.decideAmid scheme i module fs = .ok (.verified d) → g.Signed scheme i module fs d) :=
  ⟨Gate.check_unsigned_iff, fun _ => Gate.check_verified_iff, Gate.check_refused,
    fun _ _ builtin verified => Gate.signed_of_check builtin verified,
    fun _ _ _ unchanged verified => Gate.signed_of_verified unchanged verified⟩

/-- A module with a signed manifest is verified, also if the manifest is only put there before
the snapshot is taken, and one without a sidecar is refused where signatures are required. -/
theorem signed_module_decided :
    let fs := Swapped.files.rewritten "p.manifest.json" [Swapped.signed]
    let d : Manifest := { id := "a.b", version := "1" }
    (Swapped.gate.check "p.so" fs).1 = .ok (.verified d) ∧
    Swapped.gate.Vouches "p.so" fs d ∧
    Swapped.gate.Signed Ed25519.verify (fun _ => []) "p.so" fs d ∧
    Swapped.gate.Signed Ed25519.verify Swapped.once "p.so" Swapped.files d ∧
    ∃ reason, (Swapped.gate.check "q.so" fs).1 = .error (.verification "q.so" reason) := by
  intro fs d
  obtain ⟨-, vouches, -, signed, -⟩ := decision_is_exact Swapped.gate "p.so" fs
  have verified : (Swapped.gate.check "p.so" fs).1 = .ok (.verified d) := by
    decide +kernel
  have once : Swapped.gate.decideAmid Ed25519.verify Swapped.once "p.so" Swapped.files =
      .ok (.verified d) := by
    decide +kernel
  have absent : Gate.Absent "q.so" fs := by
    have nothing : fs.node true (Sidecar.ofModule "q.so").manifest = .error .notFound := by
      rfl
    intro n
    simp [nothing]
  obtain ⟨-, -, refused, -, -⟩ := decision_is_exact Swapped.gate "q.so" fs
  obtain ⟨-, -, -, -, amid⟩ := decision_is_exact Swapped.gate "p.so" Swapped.files
  refine ⟨verified, (vouches d).mp verified, signed _ d rfl verified, amid _ _ d ?_ once, ?_⟩
  · rw [Interference.files_manifest rfl]
  · exact refused (fun h => Bool.noConfusion h.2) fun _ h => h.1 absent

end PluginHost
