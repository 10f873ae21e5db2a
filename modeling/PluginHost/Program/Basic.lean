import PluginHost.Files.Basic

/-!
# Running programs

A program is run with arguments, without input, and with its output thrown away.
It may change files, and it ends with a status or is ended by a signal.
-/

namespace PluginHost.Program

/-- How a program ended. -/
inductive Exit
  | status (code : Nat)
  | signalled
  deriving DecidableEq, Repr, Inhabited

/-- What a program does, given its arguments and the files. -/
abbrev Behaviour := List String → Files → Exit × Files

/-- The programs that can be run, by the names they are called with. -/
abbrev Installed := String → Option Behaviour

/-- The fault of a text that has no form as an argument. -/
def nulInArgument : Files.Fault :=
  .other "nul byte found in provided data"

/-- Why a name that is no program's cannot be run. A name with a `/` in it may
denote a file, but never one that may be executed. -/
def whyNot (fs : Files) (name : String) : Files.Fault :=
  if name.toList.contains '/' then
    match fs.node true name with
    | .ok _ => .permissionDenied
    | .error f => f
  else .notFound

/-- Runs a program to its end. -/
def run (programs : Installed) (name : String) (args : List String) (fs : Files) :
    Except Files.Fault (Exit × Files) :=
  if (name :: args).any Terminated.hasNul then .error nulInArgument
  else match programs name with
    | some program => .ok (program args fs)
    | none => .error (whyNot fs name)

end PluginHost.Program
