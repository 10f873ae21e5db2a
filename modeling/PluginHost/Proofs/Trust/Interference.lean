import Mathlib.Control.Monad.Basic
import PluginHost.Proofs.Result
import PluginHost.Proofs.Trust.Gate

/-!
# A manifest that changes under the check

The built-in check touches files six times: it tests whether the manifest is there, reads
a snapshot of it, reads manifest, signature and key to verify them, and reads the manifest
again. Here another process may write the manifest before each of these accesses, as
often as it likes.

* `Interference` says what it writes, and `Gate.decideAmid` is the decision then.
* `Gate.FromSeen` says that the manifest of a verified module is the one whose signature
  was verified.

Results:
1. `decideAmid_of_still` and `decideAmid_of_during`: if nothing is written it is the
   decision of the gate, and if all is written while the verifier runs it is the decision
   of the gate with a verifier that meddles.
2. `from_seen_iff`: the manifest is the one whose signature was verified, unless it is
   swapped before that and swapped back afterwards. One of the two alone does no harm.
3. `swapped_back_is_verified`: there are files with a valid signature where a manifest
   without one comes through.
-/

namespace PluginHost

/-! ## Definitions -/

/-- The accesses of a check, in order. -/
inductive Access
  | test
  | snapshot
  | manifest
  | signature
  | key
  | reread
  deriving DecidableEq, Repr

/-- The accesses up to one, and this one. -/
def Access.upTo : Access → List Access
  | .test => [.test]
  | .snapshot => [.test, .snapshot]
  | .manifest => [.test, .snapshot, .manifest]
  | .signature => [.test, .snapshot, .manifest, .signature]
  | .key => [.test, .snapshot, .manifest, .signature, .key]
  | .reread => [.test, .snapshot, .manifest, .signature, .key, .reread]

/-- What another process writes into the manifest right before each access, one after the
other. -/
abbrev Interference := Access → List (List UInt8)

/-- The files after a file has been written some times. What cannot be written is not. -/
def Files.rewritten (fs : Files) (path : String) (contents : List (List UInt8)) : Files :=
  contents.foldl (fun fs data => (fs.write path data).toOption.getD fs) fs

namespace Interference

/-- The files that an access finds. -/
def files (i : Interference) (sidecar : Sidecar) (fs : Files) (a : Access) : Files :=
  fs.rewritten sidecar.manifest (a.upTo.flatMap i)

/-- The record that the verifier reads. -/
def seen (i : Interference) (sidecar : Sidecar) (key : String) (fs : Files) :
    Except Files.Fault Signature.Record := do
  let manifest ← (i.files sidecar fs .manifest).read sidecar.manifest
  let signature ← (i.files sidecar fs .signature).read sidecar.signature
  let key ← (i.files sidecar fs .key).read key
  .ok ⟨manifest, signature, key⟩

end Interference

namespace Gate

/-- What the verifier says of the record that it has read. -/
def outcomeOf (scheme : Signature.Scheme) :
    Except Files.Fault Signature.Record → Signature.Outcome
  | .ok r => r.verdict scheme
  | .error f => .failed ("failed to read verification inputs: " ++ f.message)

/-- The built-in check as a verifier that meddles: the manifest is written while it runs. -/
def meddling (scheme : Signature.Scheme) (i : Interference) : Signature.Verifier :=
  fun manifest signature key fs =>
    (outcomeOf scheme (i.seen ⟨manifest, signature⟩ key fs),
      i.files ⟨manifest, signature⟩ fs .reread)

/-- The decision of a gate with the built-in check, while another process writes the
manifest. -/
def decideAmid (g : Gate) (scheme : Signature.Scheme) (i : Interference) (module : String)
    (fs : Files) : Except Refusal Trust :=
  let sidecar := Sidecar.ofModule module
  if !sidecar.present (i.files sidecar fs .test) then
    if g.requireSignatures then .error .notSigned else .ok .unsigned
  else match g.trustedKey with
    | none => .error .noTrustedKey
    | some key =>
      match (i.files sidecar fs .snapshot).read sidecar.manifest with
      | .error f => .error (.unreadable f)
      | .ok before =>
        (judge before (outcomeOf scheme (i.seen sidecar key fs))
          ((i.files sidecar fs .reread).read sidecar.manifest)).map .verified

/-- If the module is verified, then with the manifest that the verifier has read and whose
signature it has found valid. -/
def FromSeen (g : Gate) (scheme : Signature.Scheme) (i : Interference) (module : String)
    (fs : Files) : Prop :=
  ∀ d, g.decideAmid scheme i module fs = .ok (.verified d) →
    ∃ key r, g.trustedKey = some key ∧ i.seen (Sidecar.ofModule module) key fs = .ok r ∧
      r.verdict scheme = .valid ∧ Manifest.ofBytes r.manifest = .ok d

/-- The verifier has found the signature of one manifest valid, and another one, which
says something else, was there before and is there again. -/
def SwappedBack (g : Gate) (scheme : Signature.Scheme) (i : Interference) (module : String)
    (fs : Files) : Prop :=
  let sidecar := Sidecar.ofModule module
  sidecar.present (i.files sidecar fs .test) = true ∧
    ∃ key r other d, g.trustedKey = some key ∧ i.seen sidecar key fs = .ok r ∧
      r.verdict scheme = .valid ∧
      (i.files sidecar fs .snapshot).read sidecar.manifest = .ok other ∧
      (i.files sidecar fs .reread).read sidecar.manifest = .ok other ∧
      Manifest.ofBytes other = .ok d ∧ Manifest.ofBytes r.manifest ≠ .ok d

end Gate

/-! ## A manifest that is swapped -/

namespace Swapped

/-- A manifest that is signed. -/
def signed : List UInt8 :=
  Utf8.bytesOf "\x7b\"id\":\"a.b\",\"version\":\"1\"\x7d"

/-- A manifest that nobody has signed, with a capability. -/
def forged : List UInt8 :=
  Utf8.bytesOf "\x7b\"id\":\"a.b\",\"version\":\"1\",\"capabilities\":[\"subprocess-spawn\"]\x7d"

/-- The signature of the signed manifest. -/
def signature : List UInt8 :=
  Utf8.bytesOf
    "pbvcAlSyMpPmMWGx4NRIRU1gbsvhPQqs/KYv4T6yv6P/QTHsAs3xG1vaua99NI+Go56BJyxq6UZGnqTHcfJEBw=="

/-- The key that it was signed with. -/
def key : List UInt8 :=
  Utf8.bytesOf "O2onvM62pC1io6jQKm8Nc2UyFXcd4kOmOsBIoYtZ2ik="

/-- The forged manifest stands beside the module. -/
def files : Files :=
  ⟨.dir [("p.so", .file []), ("p.manifest.json", .file forged),
    ("p.manifest.sig", .file signature), ("k.pub", .file key)], []⟩

/-- A signature is required. -/
def gate : Gate :=
  ⟨Signature.ed25519, some "k.pub", true⟩

/-- The signed manifest is there only while it is verified. -/
def back : Interference
  | .manifest => [signed]
  | .reread => [forged]
  | _ => []

/-- The signed manifest is put there before the snapshot, and stays. -/
def once : Interference
  | .snapshot => [signed]
  | _ => []

end Swapped

/-! ## The decision -/

-- How paths and documents are taken apart plays no part here, so reduction stops before it.
attribute [local irreducible] Sidecar.ofModule Sidecar.present Files.read Files.write
  Manifest.ofBytes Signature.Record.verdict

namespace Interference

variable {i : Interference} {sidecar : Sidecar} {fs : Files}

/-- If nothing is written, every access finds the same files. -/
theorem files_of_still (a : Access) : files (fun _ => []) sidecar fs a = fs := by
  cases a <;> rfl

/-- If nothing is written before the verifier runs, the first accesses find the same files. -/
theorem files_before (quiet : i .test = [] ∧ i .snapshot = []) :
    i.files sidecar fs .test = fs ∧ i.files sidecar fs .snapshot = fs := by
  simp [files, Access.upTo, quiet, Files.rewritten]

/-- If nothing is written after the snapshot is taken, the verifier reads the snapshot. -/
theorem files_manifest (quiet : i .manifest = []) :
    i.files sidecar fs .manifest = i.files sidecar fs .snapshot := by
  simp [files, Access.upTo, quiet]

/-- If nothing is written after the verifier has read the manifest, it is read again. -/
theorem files_reread (quiet : i .signature = [] ∧ i .key = [] ∧ i .reread = []) :
    i.files sidecar fs .reread = i.files sidecar fs .manifest := by
  simp [files, Access.upTo, quiet]

/-- Who sees a record has read each part of it. -/
theorem seen_eq_ok {key : String} {r : Signature.Record} (h : i.seen sidecar key fs = .ok r) :
    (i.files sidecar fs .manifest).read sidecar.manifest = .ok r.manifest ∧
    (i.files sidecar fs .signature).read sidecar.signature = .ok r.signature ∧
    (i.files sidecar fs .key).read key = .ok r.key := by
  obtain ⟨m, hm, h⟩ := bind_eq_ok_iff.mp h
  obtain ⟨s, hs, h⟩ := bind_eq_ok_iff.mp h
  obtain ⟨k, hk, h⟩ := bind_eq_ok_iff.mp h
  cases h
  exact ⟨hm, hs, hk⟩

theorem read_of_seen {key : String} {r : Signature.Record} (h : i.seen sidecar key fs = .ok r) :
    (i.files sidecar fs .manifest).read sidecar.manifest = .ok r.manifest :=
  (seen_eq_ok h).1

end Interference

namespace Gate

variable {g : Gate} {scheme : Signature.Scheme} {i : Interference} {module : String} {fs : Files}

theorem outcomeOf_isValid_iff {x : Except Files.Fault Signature.Record} :
    (outcomeOf scheme x).isValid = true ↔ ∃ r, x = .ok r ∧ r.verdict scheme = .valid := by
  cases x with
  | ok r => simp [outcomeOf, Signature.Outcome.isValid_iff]
  | error f => simp [outcomeOf, Signature.Outcome.isValid]

/-- If all is written while the verifier runs, the decision is that of the gate with the
check that meddles. -/
theorem decideAmid_of_during (quiet : i .test = [] ∧ i .snapshot = []) :
    g.decideAmid scheme i module fs =
      (decide { g with verifier := meddling scheme i } module fs).1 := by
  have before : i.files (Sidecar.ofModule module) fs .test = fs ∧
      i.files (Sidecar.ofModule module) fs .snapshot = fs := Interference.files_before quiet
  obtain ⟨test, snapshot⟩ := before
  unfold decideAmid decide
  simp only [test, snapshot]
  cases (Sidecar.ofModule module).present fs with
  | false => rfl
  | true =>
    cases g.trustedKey with
    | none => rfl
    | some key =>
      simp only [Bool.not_true, Bool.false_eq_true, ↓reduceIte]
      cases fs.read (Sidecar.ofModule module).manifest <;> rfl

/-- A check that does not meddle is the built-in one. -/
theorem meddling_of_still (scheme : Signature.Scheme) :
    meddling scheme (fun _ => []) = Signature.verifierOf scheme := by
  funext manifest signature key fs
  have seen : Interference.seen (fun _ => []) ⟨manifest, signature⟩ key fs =
      Signature.Record.read fs manifest signature key := by
    simp only [Interference.seen, Signature.Record.read, Interference.files_of_still]
  unfold meddling Signature.verifierOf
  rw [seen, Interference.files_of_still]
  cases Signature.Record.read fs manifest signature key <;> rfl

/-- If nothing is written, the decision is that of the gate with the built-in check. -/
theorem decideAmid_of_still (g : Gate) (scheme : Signature.Scheme) (module : String)
    (fs : Files) : g.decideAmid scheme (fun _ => []) module fs =
      (decide { g with verifier := Signature.verifierOf scheme } module fs).1 := by
  rw [decideAmid_of_during ⟨rfl, rfl⟩, meddling_of_still]

/-- What it takes for a module to be verified while another process writes the manifest. -/
theorem decideAmid_verified_iff {d : Manifest} :
    g.decideAmid scheme i module fs = .ok (.verified d) ↔
      let sidecar := Sidecar.ofModule module
      sidecar.present (i.files sidecar fs .test) = true ∧
      ∃ key before r, g.trustedKey = some key ∧
        (i.files sidecar fs .snapshot).read sidecar.manifest = .ok before ∧
        i.seen sidecar key fs = .ok r ∧ r.verdict scheme = .valid ∧
        (i.files sidecar fs .reread).read sidecar.manifest = .ok before ∧
        Manifest.ofBytes before = .ok d := by
  unfold decideAmid
  cases present : (Sidecar.ofModule module).present
      (i.files (Sidecar.ofModule module) fs .test) with
  | false => cases required : g.requireSignatures <;> simp [present]
  | true =>
    cases hkey : g.trustedKey with
    | none => simp [present]
    | some key =>
      cases hread : (i.files (Sidecar.ofModule module) fs .snapshot).read
          (Sidecar.ofModule module).manifest with
      | error f => simp [present, hread]
      | ok before =>
        simp only [present, hread, Bool.not_true, Bool.false_eq_true, ↓reduceIte, true_and,
          map_verified_eq_ok_iff, judge_eq_ok_iff, outcomeOf_isValid_iff, Trust.verified.injEq]
        constructor
        · rintro ⟨_, ⟨⟨r, hseen, valid⟩, hafter, hd⟩, rfl⟩
          exact ⟨key, before, r, rfl, rfl, hseen, valid, hafter, hd⟩
        · rintro ⟨_, _, r, hkey', hbefore, hseen, valid, hafter, hd⟩
          cases hkey'
          cases hbefore
          exact ⟨d, ⟨⟨r, hseen, valid⟩, hafter, hd⟩, rfl⟩

/-- The manifest of a verified module is the one whose signature was verified, unless it
was swapped before it was verified and swapped back afterwards. If nothing is written on
one of the two sides of the verification, nothing can be swapped back. -/
theorem from_seen_iff (g : Gate) (scheme : Signature.Scheme) (i : Interference)
    (module : String) (fs : Files) :
    (g.FromSeen scheme i module fs ↔ ¬ g.SwappedBack scheme i module fs) ∧
    (i .manifest = [] ∨ (i .signature = [] ∧ i .key = [] ∧ i .reread = []) →
      g.FromSeen scheme i module fs) := by
  have kept : ¬ g.SwappedBack scheme i module fs → g.FromSeen scheme i module fs := by
    intro never d verified
    obtain ⟨present, key, before, r, hkey, hbefore, hseen, valid, hafter, hd⟩ :=
      decideAmid_verified_iff.mp verified
    refine ⟨key, r, hkey, hseen, valid, ?_⟩
    refine Classical.byContradiction fun other => ?_
    exact never ⟨present, key, r, before, d, hkey, hseen, valid, hbefore, hafter, hd, other⟩
  refine ⟨⟨?_, kept⟩, fun quiet => kept ?_⟩
  · rintro same ⟨present, key, r, before, d, hkey, hseen, valid, hbefore, hafter, hd, other⟩
    have verified := decideAmid_verified_iff.mpr
      ⟨present, key, before, r, hkey, hbefore, hseen, valid, hafter, hd⟩
    obtain ⟨key', r', hkey', hseen', -, hd'⟩ := same d verified
    cases hkey.symm.trans hkey'
    cases hseen.symm.trans hseen'
    exact other hd'
  · -- On the quiet side the verifier reads what is read there, so nothing was swapped.
    rintro ⟨-, key, r, before, d, -, hseen, -, hbefore, hafter, hd, other⟩
    have read := Interference.read_of_seen hseen
    rcases quiet with quiet | quiet
    · rw [Interference.files_manifest quiet, hbefore] at read
      exact other (Except.ok.inj read ▸ hd)
    · rw [← Interference.files_reread quiet, hafter] at read
      exact other (Except.ok.inj read ▸ hd)

/-- A manifest that is swapped once, and then stays, is the one that was verified. -/
theorem swapped_once_from_seen :
    Swapped.once .manifest = [] ∧
    Swapped.gate.decideAmid Ed25519.verify Swapped.once "p.so" Swapped.files =
      .ok (.verified { id := "a.b", version := "1" }) ∧
    Swapped.gate.FromSeen Ed25519.verify Swapped.once "p.so" Swapped.files :=
  ⟨rfl, by decide +kernel, (from_seen_iff _ _ _ _ _).2 (.inl rfl)⟩

/-- A forged manifest that is swapped for a signed one while that is verified comes
through, and the gate lets the module in. -/
theorem swapped_back_is_verified :
    let forged : Manifest :=
      { id := "a.b", version := "1", capabilities := ["subprocess-spawn"] }
    Swapped.gate.decideAmid Ed25519.verify Swapped.back "p.so" Swapped.files =
      .ok (.verified forged) ∧
    (check { Swapped.gate with verifier := meddling Ed25519.verify Swapped.back } "p.so"
      Swapped.files).1 = .ok (.verified forged) ∧
    ¬ Swapped.gate.FromSeen Ed25519.verify Swapped.back "p.so" Swapped.files := by
  intro forged
  have verified : Swapped.gate.decideAmid Ed25519.verify Swapped.back "p.so" Swapped.files =
      .ok (.verified forged) := by
    decide +kernel
  have read : Swapped.back.seen (Sidecar.ofModule "p.so") "k.pub" Swapped.files =
      .ok ⟨Swapped.signed, Swapped.signature, Swapped.key⟩ := by
    decide +kernel
  have other : Manifest.ofBytes Swapped.signed ≠ .ok forged := by
    decide +kernel
  refine ⟨verified, ?_, fun same => ?_⟩
  · rw [check_ok_iff, ← decideAmid_of_during ⟨rfl, rfl⟩]
    exact verified
  · obtain ⟨key, r, hkey, hr, -, hd⟩ := same _ verified
    cases hkey
    cases read.symm.trans hr
    exact other hd

end Gate

end PluginHost
