import PluginHost.Text.Ascii

/-!
# Log lines of plugins

A plugin names the level of a line as it likes. The line is kept with that name,
and its severity is the host's reading of it.
-/

namespace PluginHost

/-- How bad it is. -/
inductive Severity
  | error
  | warning
  | info
  | debug
  | trace
  deriving DecidableEq, Repr, Inhabited

/-- The severity that a level stands for, whatever the case of its letters. -/
def Severity.ofLevel (level : String) : Severity :=
  match Ascii.lower level with
  | "error" => .error
  | "fatal" => .error
  | "critical" => .error
  | "warn" => .warning
  | "warning" => .warning
  | "debug" => .debug
  | "trace" => .trace
  | _ => .info

/-- The name of a severity in logs. -/
def Severity.name : Severity → String
  | .error => "ERROR"
  | .warning => "WARN"
  | .info => "INFO"
  | .debug => "DEBUG"
  | .trace => "TRACE"

/-- A line that a plugin has logged. -/
structure LogLine where
  severity : Severity
  plugin : String
  level : String
  message : String
  deriving DecidableEq, Repr, Inhabited

def LogLine.ofPlugin (plugin level message : String) : LogLine :=
  ⟨Severity.ofLevel level, plugin, level, message⟩

end PluginHost
