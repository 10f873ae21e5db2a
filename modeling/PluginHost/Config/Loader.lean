import PluginHost.Config.Problem
import PluginHost.Config.Reader
import PluginHost.Environment
import PluginHost.Error
import PluginHost.Files.Basic
import PluginHost.Text.Ascii

/-!
# Loading configurations

A configuration comes from a file, if it is there, and variables of the
environment override some of it. What is loaded has been checked. It can be
loaded again later, which leaves what was loaded before if it fails.

* `Config.read` reads a file as it is, and `Config.overridden` applies variables.
* `Snapshot.load`, `Snapshot.ofConfig`, `Snapshot.reload` and `Snapshot.update`
  are what can be done with a loaded configuration.
-/

namespace PluginHost

namespace Config

def unreadable (path : String) (f : Fault) : Error :=
  .config ("failed to parse " ++ path ++ ": " ++ f.message)

/-- The configuration in a file. -/
def read (path : String) (fs : Files) : Except Error Config :=
  match fs.readText path with
  | .error f => .error (.io f)
  | .ok text =>
    match ofText text with
    | .error f => .error (unreadable path f)
    | .ok c => .ok c

def isOn (value : String) : Bool :=
  ["1", "true", "yes"].contains (Ascii.lower value)

/-- The configuration with the variables applied that override it. A policy that
is not known is passed over. -/
def overridden (c : Config) (var : String → Option String) : Config :=
  { plugins :=
      { c.plugins with
        dir := (var "KEEL_PLUGINS_DIR").getD c.plugins.dir
        policy :=
          ((var "KEEL_CAPABILITY_POLICY").bind PolicyMode.ofName?).getD c.plugins.policy }
    runtime :=
      { c.runtime with headless := ((var "KEEL_HEADLESS").map isOn).getD c.runtime.headless }
    logging := { c.logging with level := (var "KEEL_LOG_LEVEL").getD c.logging.level } }

/-- The path of the configuration file: the one that is asked for, or the one that
is set, or else the usual one. -/
def location (explicit : Option String) (env : Environment) : String :=
  match explicit with
  | some p => p
  | none =>
    match env.get? "KEEL_CONFIG" with
    | some p => p
    | none => Path.join env.configDir "keel.toml"

def directory (c : Config) (env : Environment) : String :=
  c.runtime.configDir.getD env.configDir

def variableNames : List String :=
  ["HOME", "XDG_CONFIG_HOME", "KEEL_CONFIG", "KEEL_PLUGINS_DIR", "KEEL_HEADLESS",
    "KEEL_LOG_LEVEL", "KEEL_CAPABILITY_POLICY"]

/-- The configuration, if it can be used. -/
def checked (c : Config) : Except Error Config :=
  match c.check with
  | .ok _ => .ok c
  | .error text => .error (.config text)

end Config

/-- A configuration that has been loaded, and the path of its file; the path is
empty if there is none. -/
structure Snapshot where
  config : Config
  path : String
  deriving DecidableEq, Repr, Inhabited

namespace Snapshot

/-- Loads a configuration; without a file it is the default one. -/
def load (explicit : Option String) (env : Environment) (fs : Files) : Except Error Snapshot := do
  let path := Config.location explicit env
  let c ← if fs.present path then Config.read path fs else .ok {}
  let c ← (c.overridden env.get?).checked
  .ok ⟨c, path⟩

def ofConfig (c : Config) : Except Error Snapshot := do
  let c ← c.checked
  .ok ⟨c, ""⟩

/-- What the file holds now. -/
def fresh (s : Snapshot) (env : Environment) (fs : Files) : Except Error Config :=
  if fs.present s.path then do
    let c ← Config.read s.path fs
    (c.overridden env.get?).checked
  else .error (.config ("config file not found: " ++ s.path))

/-- Loads the file again. -/
def reload (s : Snapshot) (env : Environment) (fs : Files) : Except Error Unit × Snapshot :=
  match s.fresh env fs with
  | .ok c => (.ok (), { s with config := c })
  | .error e => (.error e, s)

/-- Changes the configuration, which is not checked again. -/
def update (s : Snapshot) (f : Config → Config) : Snapshot :=
  { s with config := f s.config }

end Snapshot

end PluginHost
