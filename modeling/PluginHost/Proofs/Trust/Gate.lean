import PluginHost.Proofs.Files.Ways
import PluginHost.Trust.Gate

/-!
# What the trust gate decides

A verifier is any function of three paths and the files. One is `Steady` if it keeps to these
three files and changes none, as the built-in verifier does.

Results:
1. `Gate.check_error`: a module that is not let in is refused for its verification.
2. `Gate.check_required`: where signatures are required, no module is let in unsigned.
3. `Gate.decide_verified_iff`: what it takes for a module to be verified.
4. `Gate.decide_of_sameRead`: with a steady verifier, a module is decided on by its sidecar and
   the key, and `Gate.decide_of_sameAt` says so of the built-in one.
-/

namespace PluginHost

/-- Some paths denote the same. -/
def Files.SameAt (paths : List String) (fs fs' : Files) : Prop :=
  ∀ q ∈ paths, fs.node true q = fs'.node true q

/-- Some paths can be read with the same result. -/
def Files.SameRead (paths : List String) (fs fs' : Files) : Prop :=
  ∀ q ∈ paths, fs.read q = fs'.read q

/-- A verifier that keeps to the three files that it is given.

* `keeps`: it changes no file.
* `decides`: its outcome is the same where they can be read with the same result. -/
structure Signature.Verifier.Steady (v : Signature.Verifier) : Prop where
  keeps : ∀ manifest signature key fs, (v manifest signature key fs).2 = fs
  decides : ∀ manifest signature key fs fs', Files.SameRead [manifest, signature, key] fs fs' →
    (v manifest signature key fs).1 = (v manifest signature key fs').1

/-- The files that are looked at for a module: its sidecar, and the key. -/
def Gate.looksAt (g : Gate) (module : String) : List String :=
  (Sidecar.ofModule module).manifest :: (Sidecar.ofModule module).signature ::
    g.trustedKey.toList

namespace Files.SameAt

variable {paths : List String} {fs fs' : Files} {q : String}

theorem present (same : SameAt paths fs fs') (hq : q ∈ paths) : fs.present q = fs'.present q := by
  unfold Files.present
  rw [same q hq]

theorem sameRead (same : SameAt paths fs fs') : SameRead paths fs fs' := by
  intro q hq
  unfold Files.read
  rw [same q hq]

end Files.SameAt

namespace Files.SameRead

variable {paths more : List String} {fs fs' : Files} {q : String}

theorem present (same : SameRead paths fs fs') (hq : q ∈ paths) :
    fs.present q = fs'.present q := by
  rw [present_eq, present_eq, same q hq]

theorem mono (same : SameRead paths fs fs') (fewer : more ⊆ paths) : SameRead more fs fs' :=
  fun q hq => same q (fewer hq)

end Files.SameRead

/-- The built-in verifier is steady, whatever its scheme. -/
theorem Signature.verifierOf_steady (scheme : Signature.Scheme) :
    (Signature.verifierOf scheme).Steady where
  keeps manifest signature key fs := by
    unfold verifierOf
    split <;> rfl
  decides manifest signature key fs fs' same := by
    have record : Record.read fs manifest signature key =
        Record.read fs' manifest signature key := by
      unfold Record.read
      rw [same manifest (by simp), same signature (by simp), same key (by simp)]
    unfold verifierOf
    rw [record]
    cases Record.read fs' manifest signature key <;> rfl

end PluginHost

namespace PluginHost.Gate

-- How a path is taken apart plays no part here, so reduction stops before it.
attribute [local irreducible] Sidecar.ofModule Sidecar.present Files.read Manifest.ofBytes

variable {g : Gate} {module : String} {fs : Files}

/-- A module that is not let in is refused for its verification. -/
theorem check_error {e : Error} (h : (g.check module fs).1 = .error e) :
    ∃ r, (g.decide module fs).1 = .error r ∧ e = .verification module r.message := by
  unfold check at h
  rcases hd : g.decide module fs with ⟨r | t, files⟩
  · rw [hd] at h
    exact ⟨r, rfl, (Except.error.inj h).symm⟩
  · rw [hd] at h
    cases h

theorem check_ok_iff {t : Trust} :
    (g.check module fs).1 = .ok t ↔ (g.decide module fs).1 = .ok t := by
  unfold check
  rcases g.decide module fs with ⟨r | t', files⟩
  · constructor <;> intro h <;> cases h
  · constructor <;> intro h <;> cases h <;> rfl

theorem judge_eq_ok_iff {before : List UInt8} {outcome : Signature.Outcome}
    {after : Except Files.Fault (List UInt8)} {d : Manifest} :
    judge before outcome after = .ok d ↔
      outcome.isValid = true ∧ after = .ok before ∧ Manifest.ofBytes before = .ok d := by
  unfold judge
  cases outcome.isValid with
  | false => simp
  | true =>
    cases after with
    | error f => simp
    | ok bytes =>
      by_cases same : bytes = before
      · cases Manifest.ofBytes before <;> simp [same]
      · simp [same]

/-- A judgement lets a module in as verified, or not at all. -/
theorem map_verified_eq_ok_iff {x : Except Refusal Manifest} {t : Trust} :
    x.map Trust.verified = .ok t ↔ ∃ d, x = .ok d ∧ t = .verified d := by
  cases x <;> simp [Except.map, eq_comm]

/-- A module is let in unsigned if it has no sidecar and needs none. -/
theorem decide_unsigned_iff :
    (g.decide module fs).1 = .ok .unsigned ↔
      (Sidecar.ofModule module).present fs = false ∧ g.requireSignatures = false := by
  unfold decide
  cases present : (Sidecar.ofModule module).present fs with
  | false => cases required : g.requireSignatures <;> simp [present]
  | true =>
    cases hkey : g.trustedKey with
    | none => simp [present]
    | some key =>
      cases hread : fs.read (Sidecar.ofModule module).manifest with
      | error f => simp [present, hread]
      | ok before => simp [present, hread, map_verified_eq_ok_iff]

/-- What it takes for a module to be verified: a sidecar, a trusted key, a verifier that
finds the signature valid, and a manifest that is the same before and after. -/
theorem decide_verified_iff {d : Manifest} :
    (g.decide module fs).1 = .ok (.verified d) ↔
      let sidecar := Sidecar.ofModule module
      sidecar.present fs = true ∧ ∃ key before, g.trustedKey = some key ∧
        fs.read sidecar.manifest = .ok before ∧
        (g.verifier sidecar.manifest sidecar.signature key fs).1.isValid = true ∧
        (g.verifier sidecar.manifest sidecar.signature key fs).2.read sidecar.manifest =
          .ok before ∧
        Manifest.ofBytes before = .ok d := by
  unfold decide
  cases present : (Sidecar.ofModule module).present fs with
  | false => cases required : g.requireSignatures <;> simp [present]
  | true =>
    cases hkey : g.trustedKey with
    | none => simp [present]
    | some key =>
      cases hread : fs.read (Sidecar.ofModule module).manifest with
      | error f => simp [present, hread]
      | ok before => simp [present, hread, map_verified_eq_ok_iff, judge_eq_ok_iff]

/-- Where signatures are required, no module is let in unsigned. -/
theorem check_required {t : Trust} (required : g.requireSignatures = true)
    (h : (g.check module fs).1 = .ok t) : ∃ d, t = .verified d := by
  cases t with
  | verified d => exact ⟨d, rfl⟩
  | unsigned =>
    obtain ⟨-, free⟩ := decide_unsigned_iff.mp (check_ok_iff.mp h)
    rw [required] at free
    cases free

/-! ## Steady verifiers -/

variable {fs' : Files}

/-- A gate with a steady verifier changes no file. -/
theorem decide_files_of_steady (steady : g.verifier.Steady) : (g.decide module fs).2 = fs := by
  unfold decide
  dsimp only
  cases (Sidecar.ofModule module).present fs with
  | false => rfl
  | true =>
    cases g.trustedKey with
    | none => rfl
    | some key =>
      cases fs.read (Sidecar.ofModule module).manifest with
      | error f => rfl
      | ok before => exact steady.keeps _ _ _ _

/-- With a steady verifier, a module is decided on by three files. -/
theorem decide_of_sameRead (steady : g.verifier.Steady)
    (same : Files.SameRead (g.looksAt module) fs fs') :
    (g.decide module fs).1 = (g.decide module fs').1 := by
  have present : (Sidecar.ofModule module).present fs = (Sidecar.ofModule module).present fs' := by
    rw [Sidecar.present, Sidecar.present]
    exact same.present List.mem_cons_self
  have manifest := same (Sidecar.ofModule module).manifest List.mem_cons_self
  unfold decide
  dsimp only
  rw [present]
  cases (Sidecar.ofModule module).present fs' with
  | false => rfl
  | true =>
    cases trusted : g.trustedKey with
    | none => rfl
    | some key =>
      have outcome := steady.decides (Sidecar.ofModule module).manifest
        (Sidecar.ofModule module).signature key fs fs' (same.mono (by simp [looksAt, trusted]))
      simp only [Bool.not_true, Bool.false_eq_true, ↓reduceIte, manifest]
      cases read : fs'.read (Sidecar.ofModule module).manifest with
      | error f => rfl
      | ok before =>
        dsimp only
        rw [outcome, steady.keeps, steady.keeps, manifest]

variable {scheme : Signature.Scheme}

/-- The verifier that is built in changes no file. -/
theorem decide_files (builtin : g.verifier = Signature.verifierOf scheme) :
    (g.decide module fs).2 = fs :=
  decide_files_of_steady (builtin ▸ Signature.verifierOf_steady scheme)

/-- With the verifier that is built in, a module is decided on by three files. -/
theorem decide_of_sameAt (builtin : g.verifier = Signature.verifierOf scheme)
    (same : Files.SameAt (g.looksAt module) fs fs') :
    (g.decide module fs).1 = (g.decide module fs').1 :=
  decide_of_sameRead (builtin ▸ Signature.verifierOf_steady scheme) same.sameRead

theorem check_eq (g : Gate) (module : String) (fs : Files) : g.check module fs =
    ((g.decide module fs).1.mapError fun r => .verification module r.message,
      (g.decide module fs).2) := by
  unfold check
  rfl

end PluginHost.Gate
