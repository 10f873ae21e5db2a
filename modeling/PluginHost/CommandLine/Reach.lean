import PluginHost.CommandLine.Reader
import PluginHost.Config.Loader
import PluginHost.FirstRun

/-!
# What a command looks at

The files that a command may read are known in two steps: those that the command
line and the environment name, and then those that the configuration names.

* `Invocation.reach` is the first step.
* `Command.reach` is the second, and `Command.marker?` is the file that a command
  may write.
-/

namespace PluginHost.CommandLine

/-- Files, and directories with all that is in them. -/
structure Reach where
  files : List String := []
  trees : List String := []
  deriving DecidableEq, Repr, Inhabited

def Command.operands : Command → List String
  | .verify manifest signature key => [manifest, signature, key]
  | .validate manifest => [manifest]
  | _ => []

def Invocation.reach (i : Invocation) (env : Environment) : Reach :=
  { files := Config.location i.config env :: i.command.operands }

def Command.loads : Command → Bool
  | .start _ => true
  | .plugins _ => true
  | _ => false

/-- What is looked at under a configuration. -/
def Command.reach (command : Command) (c : Config) (env : Environment) : Reach :=
  if command.loads then
    { files := FirstRun.markerPath (c.directory env) :: c.plugins.trustedKey.toList
      trees := [c.plugins.dir] }
  else {}

def Command.marker? (command : Command) (c : Config) (env : Environment) : Option String :=
  match command with
  | .start _ => some (FirstRun.markerPath (c.directory env))
  | _ => none

end PluginHost.CommandLine
