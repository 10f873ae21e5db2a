import PluginHost.Files.Path

/-!
# The environment

The variables that a program is started with, and the directory of the account
that it runs under. Where configuration lies is decided by them.
-/

namespace PluginHost

/-- Variables with their values, and the home directory of the account. -/
structure Environment where
  vars : List (String × String) := []
  accountHome : String := "/root"
  deriving DecidableEq, Repr, Inhabited

namespace Environment

def get? (e : Environment) (name : String) : Option String :=
  (e.vars.find? fun v => v.1 == name).map (·.2)

/-- The environment with a variable set, or unset. -/
def set (e : Environment) (name : String) (value : Option String) : Environment :=
  let others := e.vars.filter fun v => v.1 ≠ name
  { e with vars := match value with
    | some v => (name, v) :: others
    | none => others }

/-- The home directory: the one that is set, unless it is empty, and else that of
the account. -/
def home (e : Environment) : String :=
  match e.get? "HOME" with
  | some "" => e.accountHome
  | some dir => dir
  | none => e.accountHome

/-- The directory of all configuration: the one that is set, if it is absolute,
and else one in the home directory. -/
def configHome (e : Environment) : String :=
  match e.get? "XDG_CONFIG_HOME" with
  | some dir => if Path.isAbsolute dir then dir else Path.join e.home ".config"
  | none => Path.join e.home ".config"

def configDir (e : Environment) : String :=
  Path.join e.configHome "keel"

end Environment

end PluginHost
