/-!
# The command line

A command line names a command. Some options belong to the program, and may stand
before the command and after it; others belong to a command.

* `Invocation` is a command line that has been understood.
* `Grammar` is what may stand at one level, before the command or after it.
-/

namespace PluginHost.CommandLine

/-- What the program is asked to do. -/
inductive Command
  | start (headless : Bool)
  | verify (manifest signature key : String)
  | validate (manifest : String)
  | plugins (json : Bool)
  | config (json : Bool)
  | version
  deriving DecidableEq, Repr, Inhabited

/-- A command line: the configuration file that it names, how much is to be
logged, and the command. -/
structure Invocation where
  config : Option String := none
  logLevel : Option String := none
  verbose : Bool := false
  quiet : Bool := false
  command : Command
  deriving DecidableEq, Repr, Inhabited

/-- What an option takes. A path may not be empty. -/
inductive Takes
  | nothing
  | text
  | path
  deriving DecidableEq, Repr, Inhabited

/-- An option with its long and short name. -/
structure Switch where
  long : String
  short : Option Char := none
  takes : Takes := .nothing
  deriving DecidableEq, Repr, Inhabited

def helpSwitch : Switch := { long := "help", short := some 'h' }

def versionSwitch : Switch := { long := "version", short := some 'V' }

/-- The options of the program. -/
def globalSwitches : List Switch :=
  [{ long := "config", short := some 'c', takes := .path },
    { long := "log-level", short := some 'l', takes := .text },
    { long := "verbose", short := some 'v' },
    { long := "quiet", short := some 'q' },
    helpSwitch, versionSwitch]

/-- What may stand at a level: options, of which some have to be there, the names
of commands, and the name of an operand, if there is one. -/
structure Grammar where
  switches : List Switch := []
  required : List String := []
  commands : List String := []
  operand : Option String := none
  deriving DecidableEq, Repr, Inhabited

def helpName : String := "help"

/-- The commands with what may stand after them. -/
def commandGrammars : List (String × Grammar) :=
  [("start", { switches := [{ long := "headless" }] }),
    ("verify",
      { switches :=
          [{ long := "manifest", takes := .path }, { long := "sig", takes := .path },
            { long := "pubkey", takes := .path }]
        required := ["manifest", "sig", "pubkey"] }),
    ("validate", { operand := some "manifest", required := ["manifest"] }),
    ("plugins", { switches := [{ long := "json" }] }),
    ("config", { switches := [{ long := "json" }] }),
    ("version", {})]

/-- What may stand before the command. -/
def topGrammar : Grammar :=
  { switches := globalSwitches, commands := commandGrammars.map (·.1) ++ [helpName] }

/-- A level with the options of the program. -/
def Grammar.withGlobals (g : Grammar) : Grammar :=
  { g with switches := g.switches ++ globalSwitches }

def Switch.text (s : Switch) : String :=
  "--" ++ s.long ++ (if s.takes = .nothing then "" else " <" ++ s.long ++ ">")

def usage : String :=
  "Usage: keel [OPTIONS] <COMMAND>\n\nCommands: " ++ ", ".intercalate topGrammar.commands
    ++ "\nOptions: " ++ ", ".intercalate (globalSwitches.map Switch.text)

end PluginHost.CommandLine
