import PluginHost.CommandLine.Run
import PluginHost.Proofs.Config.Loading
import PluginHost.Proofs.Text.Bytes
import PluginHost.Proofs.Text.Split

/-!
# Ways to check a signature

A signature is checked by a command, by another program that hands over three pointers, and
by a verifier, which may be the configured one. The command loads a configuration first and
has no use for it: a broken one must not be taken for a broken signature. The other program
may hand over what is no text at all.

* `CommandLine.Agree` says that each way comes to the same code.

Results:
1. `CommandLine.Invocation.run_verify`: the command checks under any configuration.
2. `CommandLine.ofArguments_verify`: it is given any three paths.
3. `Signature.codeOfPointers_of_no_text`: pointers without a text make no check.
4. `CommandLine.checks_agree`: all of it.
-/

namespace PluginHost

/-! ## Definitions -/

/-- The settings leave the check to the program itself. -/
def VerifierSettings.IsBuiltin (v : VerifierSettings) : Prop :=
  v.kind = .builtin ∨ v.command = none

namespace CommandLine

/-- `Agree manifest signature key fs code`: each way to have the three files checked comes to
`code`.

* `given`: the paths can be given to the command.
* `command`: every command line with which they are given to it, in whatever way and with
  whatever besides, exits with the code. Files other than the three, a configuration among
  them, the environment, the time and the programs may be any, so two runs that differ in
  them exit alike.
* `pointers`: so does a call with the paths in memory.
* `check`: so does the check itself.
* `configured`: so does the verifier of all settings that do not name a program, such as the
  default ones. It says yes if the code is zero. -/
structure Agree (manifest signature key : String) (fs : Files) (code : Nat) : Prop where
  given : Invocation.ofArguments
      ["verify", "--manifest=" ++ manifest, "--sig=" ++ signature, "--pubkey=" ++ key] =
    .ok { command := .verify manifest signature key }
  command : ∀ args i (s : Setting), Invocation.ofArguments args = .ok i →
    i.command = .verify manifest signature key →
    (∀ path ∈ [manifest, signature, key], s.files.read path = fs.read path) →
    ∃ o, run args s = .ok o ∧ o.exitCode = code
  pointers : ∀ behind₁ behind₂ behind₃, Signature.codeOfPointers
    (.inMemory manifest behind₁) (.inMemory signature behind₂) (.inMemory key behind₃) fs = code
  check : (Signature.ed25519 manifest signature key fs).1.exitCode = code
  configured : ∀ programs (v : VerifierSettings), v.IsBuiltin →
    let o := (Signature.ofSettings programs v manifest signature key fs).1
    o.exitCode = code ∧ (o.isValid = true ↔ code = 0)

end CommandLine

/-! ## Checks -/

namespace Signature

variable {manifest signature key : String} {fs fs' : Files}

/-- A check depends on nothing but the three files. -/
theorem ed25519_congr
    (same : ∀ path ∈ [manifest, signature, key], fs.read path = fs'.read path) :
    (ed25519 manifest signature key fs).1 = (ed25519 manifest signature key fs').1 := by
  have record : Record.read fs manifest signature key = Record.read fs' manifest signature key := by
    unfold Record.read
    rw [same manifest (by simp), same signature (by simp), same key (by simp)]
  unfold ed25519 verifierOf
  rw [record]
  cases Record.read fs' manifest signature key <;> rfl

theorem ofSettings_of_isBuiltin {v : VerifierSettings} (builtin : v.IsBuiltin)
    (programs : Program.Installed) : ofSettings programs v = ed25519 := by
  unfold ofSettings
  rcases builtin with kind | none
  · rw [kind]
  · rw [none]
    cases v.kind <;> rfl

/-- A text without a NUL is handed over whole. -/
theorem pathOfPointer_inMemory {s : String} (text : Terminated.hasNul s = false)
    (behind : List UInt8) : pathOfPointer (.inMemory s behind) = some s := by
  rw [Terminated.inMemory, Terminated.upToNul_bytesOf text]
  exact Utf8.text?_eq_some_iff_bytesOf.mpr rfl

theorem pathOfPointer_eq_none_iff {p : Terminated} : pathOfPointer p = none ↔ p.NoText := by
  cases p with
  | none => exact ⟨fun _ _ => nofun, fun _ => rfl⟩
  | some bytes =>
    have read (s : String) : Utf8.text? bytes = some s ↔ some bytes = some (Utf8.bytesOf s) := by
      rw [Utf8.text?_eq_some_iff_bytesOf, Option.some.injEq]
    rw [pathOfPointer, Option.bind_some, Option.eq_none_iff_forall_ne_some]
    exact forall_congr' fun s => not_congr (read s)

/-- If one of the pointers has no text there is no check, whatever the others are. -/
theorem codeOfPointers_of_no_text {p q r : Terminated} (missing : ∃ x ∈ [p, q, r], x.NoText)
    (fs : Files) : codeOfPointers p q r fs = 2 := by
  simp only [List.mem_cons, List.not_mem_nil, or_false, exists_eq_or_imp, exists_eq_left,
    ← pathOfPointer_eq_none_iff] at missing
  unfold codeOfPointers
  rcases missing with none | none | none
  · rw [none]
  · rw [none]
    cases pathOfPointer p <;> rfl
  · rw [none]
    cases pathOfPointer p <;> cases pathOfPointer q <;> rfl

end Signature

namespace CommandLine

/-! ## Carrying out the command -/

theorem ofConfig_default : Snapshot.ofConfig {} = .ok ⟨{}, ""⟩ :=
  Snapshot.ofConfig_eq_ok_iff.mpr ⟨rfl, Config.default_usable fun _ => none⟩

/-- The command checks a signature whatever has become of the configuration. -/
theorem Invocation.run_verify {i : Invocation} {manifest signature key : String}
    (asked : i.command = .verify manifest signature key) (s : Setting) :
    i.run s = checkSignature manifest signature key s := by
  unfold Invocation.run
  rw [asked]
  cases Snapshot.load i.config s.environment s.files with
  | ok snapshot => rfl
  | error e =>
    simp only [Command.needsNoConfig, ↓reduceIte, ofConfig_default]
    rfl

theorem checkSignature_exitCode (manifest signature key : String) (s : Setting) :
    (checkSignature manifest signature key s).exitCode =
      (Signature.ed25519 manifest signature key s.files).1.exitCode := rfl

/-! ## Giving paths to the command -/

section given

variable {g : Grammar} {l l' : Level} {value arg : String} {args : List String}

/-- A level takes an option with its value in the same argument, whatever is in the value. -/
theorem Level.step_option (name : String) (going : l.ended = false) (settled : l.pending = none)
    (known : g.switches.find? (fun s => s.long == name) = some { long := name, takes := .path })
    (plain : '=' ∉ name.toList) (fresh : l.has name = false) (path : value ≠ "") :
    l.step g ("--" ++ name ++ "=" ++ value) =
      .ok { l with awaiting := false, given := (name, value) :: l.given } := by
  have text : ("--" ++ name ++ "=" ++ value).toList =
      '-' :: '-' :: (name.toList ++ '=' :: value.toList) := by
    simp only [String.toList_append, List.append_assoc]
    rfl
  -- The first `=` is the one after the name, so another one in the value stays there.
  obtain ⟨before, behind⟩ :
      (name.toList ++ '=' :: value.toList).takeWhile (· ≠ '=') = name.toList ∧
        (name.toList ++ '=' :: value.toList).dropWhile (· ≠ '=') = '=' :: value.toList :=
    takeWhile_of_ends (fun c hc => decide_eq_true fun same : c = '=' => plain (same ▸ hc)) (by simp)
  have accepted : ({ l with awaiting := false } : Level).accept { long := name, takes := .path }
      value = .ok { l with awaiting := false, given := (name, value) :: l.given } := by
    simp only [has, get?] at fresh
    simp [accept, settle, settled, record, helpSwitch, versionSwitch, path, bind, Except.bind, has,
      get?, fresh]
  have word : ({ l with awaiting := false } : Level).word g (name.toList ++ '=' :: value.toList) =
      .ok { l with awaiting := false, given := (name, value) :: l.given } := by
    unfold Level.word
    simp only [before, behind, String.ofList_toList, known]
    exact accepted
  unfold step
  rw [if_neg (by simp [going]), text]
  split
  · next h => simp at h
  · next h =>
    cases h
    exact word
  · next long h =>
    cases h
    exact (long rfl).elim
  · next other => exact (other _ _ rfl).elim

theorem Level.scan_step (plain : g.commands = []) (step : l.step g arg = .ok l') :
    scan g l (arg :: args) = scan g l' args := by
  rw [scan, if_neg (by simp [names, plain]), step]
  rfl

/-- What may stand after the command that checks a signature. -/
def checkGrammar : Grammar :=
  ((commandGrammars.find? fun g => g.1 == "verify").map (·.2.withGlobals)).getD {}

/-- Any three paths can be given to the command. -/
theorem ofArguments_verify {manifest signature key : String} (hm : manifest ≠ "")
    (hs : signature ≠ "") (hk : key ≠ "") :
    Invocation.ofArguments
        ["verify", "--manifest=" ++ manifest, "--sig=" ++ signature, "--pubkey=" ++ key] =
      .ok { command := .verify manifest signature key } := by
  let args := ["--manifest=" ++ manifest, "--sig=" ++ signature, "--pubkey=" ++ key]
  let full : Level := { given := [("pubkey", key), ("sig", signature), ("manifest", manifest)] }
  have first : Level.step checkGrammar {} ("--manifest=" ++ manifest) =
      .ok { given := [("manifest", manifest)] } :=
    Level.step_option "manifest" rfl rfl (by decide +kernel) (by decide) rfl hm
  have second : Level.step checkGrammar { given := [("manifest", manifest)] }
      ("--sig=" ++ signature) = .ok { given := [("sig", signature), ("manifest", manifest)] } :=
    Level.step_option "sig" rfl rfl (by decide +kernel) (by decide) rfl hs
  have third : Level.step checkGrammar { given := [("sig", signature), ("manifest", manifest)] }
      ("--pubkey=" ++ key) = .ok full :=
    Level.step_option "pubkey" rfl rfl (by decide +kernel) (by decide) rfl hk
  have scanned : Level.scan checkGrammar {} args = .ok (full, none) := by
    rw [Level.scan_step rfl first, Level.scan_step rfl second, Level.scan_step rfl third]
    rfl
  have found : commandGrammars.find? (fun g => g.1 == "verify") =
      some ("verify",
        { switches :=
            [{ long := "manifest", takes := .path }, { long := "sig", takes := .path },
              { long := "pubkey", takes := .path }]
          required := ["manifest", "sig", "pubkey"] }) := by decide +kernel
  have after : behind "verify" args = .ok (full, .verify manifest signature key) := by
    unfold behind
    rw [if_neg (by decide), found]
    show (Level.scan checkGrammar {} args >>= _) = _
    rw [scanned]
    rfl
  -- The name of the command is the first argument, so nothing stands before it.
  show (behind "verify" args >>= _) = _
  rw [after]
  rfl

end given

/-! ## All ways -/

/-- All ways to have three files checked come to the same code, and a call with a pointer that
has no text comes to the code that stands for no check. -/
theorem checks_agree {manifest signature key : String} (fs : Files)
    (paths : ∀ path ∈ [manifest, signature, key], path ≠ "" ∧ Terminated.hasNul path = false) :
    (∃ code, Agree manifest signature key fs code) ∧
      ∀ p q r : Terminated, (∃ x ∈ [p, q, r], x.NoText) →
        Signature.codeOfPointers p q r fs = 2 := by
  obtain ⟨hm, textm⟩ := paths manifest (by simp)
  obtain ⟨hs, texts⟩ := paths signature (by simp)
  obtain ⟨hk, textk⟩ := paths key (by simp)
  refine ⟨⟨(Signature.ed25519 manifest signature key fs).1.exitCode, ?_⟩,
    fun _ _ _ missing => Signature.codeOfPointers_of_no_text missing fs⟩
  constructor
  case given => exact ofArguments_verify hm hs hk
  case command =>
    intro args i s understood asked same
    refine ⟨i.run s, by rw [run, understood]; rfl, ?_⟩
    rw [Invocation.run_verify asked, checkSignature_exitCode, Signature.ed25519_congr same]
  case pointers =>
    intro behind₁ behind₂ behind₃
    rw [Signature.codeOfPointers, Signature.pathOfPointer_inMemory textm,
      Signature.pathOfPointer_inMemory texts, Signature.pathOfPointer_inMemory textk]
  case check => rfl
  case configured =>
    intro programs v builtin
    rw [Signature.ofSettings_of_isBuiltin builtin]
    exact ⟨rfl, Signature.Outcome.isValid_iff_exitCode⟩

/-- A key that is too short is an invalid key, and not a broken configuration. -/
theorem short_key_is_invalid :
    let fs : Files := ⟨.dir [("keel.toml", .file (Utf8.bytesOf "=")),
      ("m", .file (Utf8.bytesOf "{}")), ("s", .file []), ("k", .file [])], []⟩
    (∀ path ∈ ["m", "s", "k"], path ≠ "" ∧ Terminated.hasNul path = false) ∧
      (Snapshot.load (some "keel.toml") {} fs).isOk = false ∧ Agree "m" "s" "k" fs 1 := by
  intro fs
  have paths : ∀ path ∈ ["m", "s", "k"], path ≠ "" ∧ Terminated.hasNul path = false := by
    decide
  obtain ⟨⟨code, agree⟩, -⟩ := checks_agree fs paths
  have invalid : (Signature.ed25519 "m" "s" "k" fs).1.exitCode = 1 := by decide +kernel
  have one : code = 1 := agree.check.symm.trans invalid
  exact ⟨paths, by decide +kernel, one ▸ agree⟩

end CommandLine

end PluginHost
