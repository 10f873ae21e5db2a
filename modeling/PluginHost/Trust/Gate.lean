import PluginHost.Error
import PluginHost.Manifest.Reader
import PluginHost.Manifest.Sidecar
import PluginHost.Signature.Verifier

/-!
# The trust gate

Before a module is opened, its sidecar decides whether it may be loaded at all. A
module without a sidecar is unsigned, which is fine unless signatures are
required. A module with one is let in only if the signature of its manifest
holds under the trusted key.

The manifest is read before the verifier runs and again afterwards, and the two
have to be the same, so a manifest that changes under the check is rejected.

* `Gate.check` decides over a module.
* `Gate.judge` is the decision itself, given what was seen.
-/

namespace PluginHost

/-- What is known of a module that may be loaded. -/
inductive Trust
  | unsigned
  | verified (m : Manifest)
  deriving DecidableEq, Repr, Inhabited

def Trust.manifest? : Trust → Option Manifest
  | .unsigned => none
  | .verified m => some m

def Trust.isVerified (t : Trust) : Bool :=
  t.manifest?.isSome

/-- A verifier, the file that holds the trusted key, and whether a signature is
required. -/
structure Gate where
  verifier : Signature.Verifier
  trustedKey : Option String
  requireSignatures : Bool

namespace Gate

/-- The gate that lets every module without a sidecar in. -/
def opened : Gate :=
  ⟨Signature.ed25519, none, false⟩

def ofSettings (programs : Program.Installed) (s : PluginSettings) : Gate :=
  ⟨Signature.ofSettings programs s.verifier, s.trustedKey, s.requireSignatures⟩

/-- Why a module is not let in. -/
inductive Refusal
  | notSigned
  | noTrustedKey
  | unreadable (fault : Files.Fault)
  | notValid (outcome : Signature.Outcome)
  | unreadableAgain (fault : Files.Fault)
  | changed
  | notManifest (error : Json.Error)
  deriving DecidableEq, Repr, Inhabited

/-- The text of a refusal. -/
def Refusal.message : Refusal → String
  | .notSigned => "no signed manifest accompanies the module"
  | .noTrustedKey => "manifest present but no trusted key configured"
  | .unreadable fault => "failed to read manifest: " ++ fault.message
  | .notValid outcome => outcome.text
  | .unreadableAgain fault => "failed to re-read manifest: " ++ fault.message
  | .changed => "manifest changed during verification"
  | .notManifest error => "signed manifest is unreadable: " ++ (Error.malformed error).message

/-- The decision on a module whose sidecar is there, once its verifier has run:
what the manifest file held before and after, and the outcome between. -/
def judge (before : List UInt8) (outcome : Signature.Outcome)
    (after : Except Files.Fault (List UInt8)) : Except Refusal Manifest :=
  if !outcome.isValid then .error (.notValid outcome)
  else match after with
    | .error f => .error (.unreadableAgain f)
    | .ok bytes =>
      if bytes ≠ before then .error .changed
      else match Manifest.ofBytes before with
        | .ok m => .ok m
        | .error e => .error (.notManifest e)

/-- The decision on a module, and the files after its verifier has run. -/
def decide (g : Gate) (module : String) (fs : Files) : Except Refusal Trust × Files :=
  let sidecar := Sidecar.ofModule module
  if !sidecar.present fs then
    (if g.requireSignatures then .error .notSigned else .ok .unsigned, fs)
  else match g.trustedKey with
    | none => (.error .noTrustedKey, fs)
    | some key =>
      match fs.read sidecar.manifest with
      | .error f => (.error (.unreadable f), fs)
      | .ok before =>
        let (outcome, fs) := g.verifier sidecar.manifest sidecar.signature key fs
        ((judge before outcome (fs.read sidecar.manifest)).map .verified, fs)

/-- Lets a module in, or says why not; with the files after its verifier has run. -/
def check (g : Gate) (module : String) (fs : Files) : Except Error Trust × Files :=
  let (decision, fs) := g.decide module fs
  (decision.mapError fun r => .verification module r.message, fs)

end Gate

end PluginHost
