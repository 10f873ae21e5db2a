import PluginHost.CommandLine.Reader
import PluginHost.Config.Printer
import PluginHost.Core
import PluginHost.Manager.Native
import PluginHost.Program.Shell

/-!
# Carrying out commands

A command reads files and the environment, prints, may write files, and ends with
an exit code. A command line that is not understood does nothing.

* `Invocation.run` carries out an invocation.
* `run` does so for arguments.
-/

namespace PluginHost.CommandLine

open Json (Value)

/-- What a command works in. -/
structure Setting where
  files : Files
  environment : Environment := {}
  now : Instant
  programs : Program.Installed := Program.Shell.programs

/-- What has come of a command: the files afterwards, what it printed, why it
failed, if it did, and its exit code. -/
structure Outcome where
  files : Files
  output : String := ""
  complaint : Option String := none
  exitCode : Nat := 0

namespace Outcome

def failed (files : Files) (complaint : String) : Outcome :=
  { files, complaint := some ("error: " ++ complaint), exitCode := 1 }

def printed (files : Files) (lines : List String) (exitCode : Nat) : Outcome :=
  { files, output := String.join (lines.map (· ++ "\n")), exitCode }

/-- A command that came to an end for want of memory. -/
def outOfMemory (files : Files) : Outcome :=
  { files, exitCode := 101 }

end Outcome

def programVersion : String := "0.1.0"

def versionLines : List String :=
  ["keel " ++ programVersion, "  module extension: " ++ moduleExtension]

/-- The lines that show a configuration, and where it was looked for. -/
def configLines (s : Snapshot) (json : Bool) : List String :=
  if json then [s.config.toValue.prettyText] else ["# " ++ s.path, s.config.toml]

/-- Checks a signature. A check that could not be made prints nothing. -/
def checkSignature (manifest signature key : String) (s : Setting) : Outcome :=
  let (o, files) := Signature.ed25519 manifest signature key s.files
  let lines := match o with
    | .valid => ["valid: " ++ manifest]
    | .invalid reason => ["invalid: " ++ reason]
    | .failed _ => []
  .printed files lines o.exitCode

/-- The manifest in a file. -/
def readManifest (path : String) (fs : Files) : Except Error Manifest :=
  match fs.read path with
  | .error f => .error (.io f)
  | .ok bytes => (Manifest.ofBytes bytes).mapError Error.malformed

/-- Lists what is wrong with a manifest. -/
def checkManifest (path : String) (s : Setting) : Outcome :=
  match readManifest path s.files with
  | .error e => .failed s.files (s!"failed to read manifest {path}: " ++ e.fullMessage)
  | .ok m =>
    let problems := m.problems
    if problems = [] then .printed s.files [m.id ++ " " ++ m.version ++ " ok"] 0
    else
      let count := problems.length
      .printed s.files
        (problems.map (fun p => "  - " ++ p.message) ++ [s!"{count} problem(s) in {path}"]) 1

def pluginLines (p : PluginInfo) : List String :=
  [s!"  {p.id} v{p.version} ({p.name}) " ++ (if p.verified then "[signed]" else "[unsigned]"),
    "    requested: " ++ p.requested.display,
    "    granted:   " ++ p.granted.display]

def failureLine (f : Manager.LoadFailure) : String :=
  s!"  ! {f.path}: " ++ f.error.message

def foundLines (dir : String) (infos : List PluginInfo) (failures : List Manager.LoadFailure) :
    List String :=
  (if infos.isEmpty then [s!"No plugins found in {dir}."] else [])
    ++ infos.flatMap pluginLines ++ failures.map failureLine

def pluginValue (p : PluginInfo) : Value :=
  .object [("granted", .strings p.granted.names), ("id", .string p.id), ("name", .string p.name),
    ("path", .string p.path), ("requested", .strings p.requested.names),
    ("verified", .bool p.verified), ("version", .string p.version)]

def failureValue (f : Manager.LoadFailure) : Value :=
  .object [("error", .string f.error.message), ("path", .string f.path)]

def foundValue (s : PluginSettings) (infos : List PluginInfo)
    (failures : List Manager.LoadFailure) : Value :=
  .object [("dir", .string s.dir), ("failures", .array (failures.map failureValue)),
    ("plugins", .array (infos.map pluginValue)), ("policy", .string s.policy.name)]

/-- The world of a command, with nothing outside the host. -/
def Setting.world (s : Setting) (bus : Bus Event) : World Unit :=
  { files := s.files, bus, now := s.now, outside := () }

def core (s : Setting) (c : Config) : Core Unit :=
  { config := c, loader := Native.loader, programs := s.programs }

/-- Loads the plugins of the configured directory, shows them, and releases them
without having started any. -/
def listPlugins (c : Config) (json : Bool) (s : Setting) : Outcome :=
  match Core.bus? c with
  | none => .outOfMemory s.files
  | some bus =>
    let (report, m, w) :=
      (core s c).newManager.discover c.plugins.dir c.plugins.extension (s.world bus)
    let lines :=
      if json then [(foundValue c.plugins m.infos report.failures).prettyText]
      else foundLines c.plugins.dir m.infos report.failures
    .printed (m.shutdown w).2.files lines (if report.isClean then 0 else 1)

/-- How many events the host takes before it looks whether it is to stop. -/
def patience : Nat := 1000000

def runningLine (started : Nat) : String :=
  s!"keel running with {started} plugin(s); press Ctrl-C to stop"

/-- Starts the host, lets it run until nothing is left to do, and shuts it down. -/
def startHost (c : Config) (s : Setting) : Outcome :=
  match Core.bus? c with
  | none => .outOfMemory s.files
  | some bus =>
    match (core s c).start s.environment (s.world bus) with
    | (.error e, _, w) => .failed w.files ("failed to initialize core: " ++ e.fullMessage)
    | (.ok report, core, w) =>
      let (core, w) := ((core.run patience w).map (·.2)).getD (core, w)
      .printed (core.close w).files [runningLine report.started.length] 0

/-- The configuration with the command's own wish for no user interface. -/
def withHeadless (c : Config) (headless : Bool) : Config :=
  { c with runtime := { c.runtime with headless := c.runtime.headless || headless } }

/-- Carries out a command under a configuration. -/
def Command.run (command : Command) (snapshot : Snapshot) (s : Setting) : Outcome :=
  match command with
  | .start headless => startHost (withHeadless snapshot.config headless) s
  | .verify manifest signature key => checkSignature manifest signature key s
  | .validate manifest => checkManifest manifest s
  | .plugins json => listPlugins snapshot.config json s
  | .config json => .printed s.files (configLines snapshot json) 0
  | .version => .printed s.files versionLines 0

/-- The command can do without a configuration. -/
def Command.needsNoConfig : Command → Bool
  | .verify _ _ _ => true
  | _ => false

/-- Carries out an invocation. A configuration that cannot be used keeps every
command from being carried out but one that needs none, which gets the default
configuration instead. -/
def Invocation.run (i : Invocation) (s : Setting) : Outcome :=
  match Snapshot.load i.config s.environment s.files with
  | .ok snapshot => i.command.run snapshot s
  | .error e =>
    if i.command.needsNoConfig then
      match Snapshot.ofConfig {} with
      | .ok snapshot => i.command.run snapshot s
      | .error e => .failed s.files e.fullMessage
    else .failed s.files ("failed to load configuration: " ++ e.fullMessage)

def run (args : List String) (s : Setting) : Except Stop Outcome :=
  (Invocation.ofArguments args).map fun i => i.run s

end PluginHost.CommandLine
