import PluginHost.Config.Basic

/-!
# Problems of configurations

A configuration can be read and still make no sense, or little. A problem is
about one setting; an error keeps the host from using the configuration, and the
others do not.

* `Config.problems` lists the problems.
* `Config.check` refuses a configuration with errors.
-/

namespace PluginHost

namespace Config

/-- How bad a problem is. -/
inductive Weight
  | error
  | warning
  | info
  deriving DecidableEq, Repr, Inhabited

def Weight.name : Weight → String
  | .error => "error"
  | .warning => "warning"
  | .info => "info"

/-- A problem with a setting. -/
inductive Problem
  | keyRequired
  | noKey
  | noVerifierCommand
  | permissivePolicy
  | badExtension (extension : String)
  | noCapacity
  | unknownFormat (format : String)
  | unknownLevel (level : String)
  deriving DecidableEq, Repr, Inhabited

def logFormats : List String :=
  ["pretty", "json"]

def logLevels : List String :=
  ["trace", "debug", "info", "warn", "error"]

namespace Problem

/-- The setting that a problem is about. -/
def field : Problem → String
  | .keyRequired => "plugins.trusted_key"
  | .noKey => "plugins.trusted_key"
  | .noVerifierCommand => "plugins.verifier.command"
  | .permissivePolicy => "plugins.policy"
  | .badExtension _ => "plugins.extension"
  | .noCapacity => "runtime.event_capacity"
  | .unknownFormat _ => "logging.format"
  | .unknownLevel _ => "logging.level"

/-- What the problem is. -/
def message : Problem → String
  | .keyRequired => "signatures are required but no trusted key is configured"
  | .noKey => "no trusted key; modules shipped with a signed manifest will be rejected"
  | .noVerifierCommand => "command verifier selected without a program"
  | .permissivePolicy => "permissive policy grants every capability a plugin requests"
  | .badExtension extension => s!"invalid module extension '{extension}'"
  | .noCapacity => "event capacity is 0"
  | .unknownFormat format => s!"unknown log format '{format}'"
  | .unknownLevel level => s!"unknown log level '{level}'"

/-- How bad the problem is. -/
def weight : Problem → Weight
  | .keyRequired => .error
  | .noKey => .info
  | .noVerifierCommand => .error
  | .permissivePolicy => .warning
  | .badExtension _ => .error
  | .noCapacity => .error
  | .unknownFormat _ => .warning
  | .unknownLevel _ => .warning

/-- What can be done about it. -/
def hint : Problem → String
  | .keyRequired => "Point plugins.trusted_key at a base64 Ed25519 public key"
  | .noKey => "Point plugins.trusted_key at a base64 Ed25519 public key"
  | .noVerifierCommand => "Set plugins.verifier.command, e.g. \"keel\""
  | .permissivePolicy => "Use \"least-privilege\" with plugins.grants instead"
  | .badExtension _ => "Use the bare extension, e.g. \"" ++ moduleExtension ++ "\""
  | .noCapacity => "Set to e.g. 1024"
  | .unknownFormat _ => "Valid values: " ++ ", ".intercalate logFormats
  | .unknownLevel _ => "Valid values: " ++ ", ".intercalate logLevels

def text (p : Problem) : String :=
  "[" ++ p.weight.name ++ "] " ++ p.field ++ ": " ++ p.message ++ " (" ++ p.hint ++ ")"

/-- The problem keeps the configuration from being used. -/
def isError (p : Problem) : Bool :=
  p.weight = .error

end Problem

/-- A problem, if a condition holds. -/
def problemIf (bad : Bool) (p : Problem) : List Problem :=
  if bad then [p] else []

def isExtension (s : String) : Bool :=
  s ≠ "" && s.toList.head? ≠ some '.'

def keyProblems (s : PluginSettings) : List Problem :=
  if s.trustedKey.isSome then []
  else if s.requireSignatures then [.keyRequired]
  else [.noKey]

/-- The problems of a configuration, in the order of its settings. -/
def problems (c : Config) : List Problem :=
  keyProblems c.plugins
    ++ problemIf (c.plugins.verifier.kind = .command && c.plugins.verifier.command.isNone)
      .noVerifierCommand
    ++ problemIf (c.plugins.policy = .permissive) .permissivePolicy
    ++ problemIf (!isExtension c.plugins.extension) (.badExtension c.plugins.extension)
    ++ problemIf (c.runtime.eventCapacity = 0) .noCapacity
    ++ problemIf (!logFormats.contains c.logging.format) (.unknownFormat c.logging.format)
    ++ problemIf (!logLevels.contains c.logging.level) (.unknownLevel c.logging.level)

def errorLine (p : Problem) : String :=
  "\n  • " ++ p.field ++ ": " ++ p.message

def errorsText (ps : List Problem) : String :=
  "Configuration errors:" ++ String.join (ps.map errorLine)

/-- The problems of a configuration that can be used, or the text of its errors. -/
def check (c : Config) : Except String (List Problem) :=
  let errors := c.problems.filter Problem.isError
  if errors = [] then .ok c.problems else .error (errorsText errors)

end Config

end PluginHost
