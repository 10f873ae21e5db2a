import PluginHost.Signature.Basic
import PluginHost.Program.Basic
import PluginHost.Config.Basic

/-!
# Verifiers

A verifier is given the paths of a manifest, of its signature and of a key. It
may change files while it is at it, as a program that is run to check a signature
may.

* `ed25519` reads the three files and decides.
* `command` runs a program and takes its exit for the answer.
* `codeOfPointers` is the check as other programs call it.
-/

namespace PluginHost.Signature

/-- A verifier, with the files before and after. -/
abbrev Verifier := (manifest signature key : String) → Files → Outcome × Files

/-- The three files of a check. -/
def Record.read (fs : Files) (manifest signature key : String) : Except Files.Fault Record := do
  let m ← fs.read manifest
  let s ← fs.read signature
  let k ← fs.read key
  .ok ⟨m, s, k⟩

/-- Reads the files and decides under a scheme. -/
def verifierOf (scheme : Scheme) : Verifier := fun manifest signature key fs =>
  match Record.read fs manifest signature key with
  | .ok r => (r.verdict scheme, fs)
  | .error f => (.failed ("failed to read verification inputs: " ++ f.message), fs)

/-- Reads the files and decides. -/
def ed25519 : Verifier :=
  verifierOf Ed25519.verify

/-- What the exit of a verifying program means. -/
def outcomeOfExit : Program.Exit → Outcome
  | .status 0 => .valid
  | .status 1 => .invalid "external verifier rejected the signature"
  | .status code => .failed s!"external verifier exited with {code}"
  | .signalled => .failed "external verifier was terminated by a signal"

/-- Runs a program, which finds the paths at the end of its arguments. -/
def command (programs : Program.Installed) (program : String) (args : List String) : Verifier :=
  fun manifest signature key fs =>
    match Program.run programs program
        (args ++ ["--manifest", manifest, "--sig", signature, "--pubkey", key]) fs with
    | .ok (exit, fs) => (outcomeOfExit exit, fs)
    | .error f => (.failed (s!"failed to run {program}: " ++ f.message), fs)

/-- The verifier that is configured. A command verifier without a program is the
built-in one. -/
def ofSettings (programs : Program.Installed) (s : VerifierSettings) : Verifier :=
  match s.kind, s.command with
  | .command, some program => command programs program s.args
  | _, _ => ed25519

/-- The text of a path that another program hands over. -/
def pathOfPointer (p : Terminated) : Option String :=
  p.bind fun bytes => Utf8.text? bytes

/-- The exit code of a check whose paths another program hands over; a path that
is absent or no text counts as a check that could not be made. -/
def codeOfPointers (manifest signature key : Terminated) (fs : Files) : Nat :=
  match pathOfPointer manifest, pathOfPointer signature, pathOfPointer key with
  | some m, some s, some k => (ed25519 m s k fs).1.exitCode
  | _, _, _ => 2

end PluginHost.Signature
