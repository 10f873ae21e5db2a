import PluginHost.Capability.Policy

/-!
# Configuration

What an operator can set, with the values that hold when nothing is set.
-/

namespace PluginHost

def moduleExtension : String := "so"

/-- Who checks the signatures of manifests. -/
inductive VerifierKind
  | builtin
  | command
  deriving DecidableEq, Repr, Inhabited

def VerifierKind.name : VerifierKind → String
  | .builtin => "builtin"
  | .command => "command"

/-- The verifier of manifests. The arguments stand before those that name the
files. -/
structure VerifierSettings where
  kind : VerifierKind := .builtin
  command : Option String := none
  args : List String := ["verify"]
  deriving DecidableEq, Repr, Inhabited

/-- Where modules come from and what they may do. Grants are in the order of the
plugin ids, each of which stands once. -/
structure PluginSettings where
  dir : String := "plugins"
  extension : String := moduleExtension
  requireSignatures : Bool := false
  trustedKey : Option String := none
  policy : PolicyMode := .leastPrivilege
  grants : List (String × List String) := []
  verifier : VerifierSettings := {}
  deriving DecidableEq, Repr, Inhabited

/-- How the host runs. -/
structure RuntimeSettings where
  headless : Bool := false
  configDir : Option String := none
  eventCapacity : Nat := 1024
  deriving DecidableEq, Repr, Inhabited

/-- What is logged, and how. -/
structure LoggingSettings where
  level : String := "info"
  format : String := "pretty"
  deriving DecidableEq, Repr, Inhabited

/-- A configuration. -/
structure Config where
  plugins : PluginSettings := {}
  runtime : RuntimeSettings := {}
  logging : LoggingSettings := {}
  deriving DecidableEq, Repr, Inhabited

def PluginSettings.toPolicy (s : PluginSettings) : Policy :=
  Policy.ofGrants s.policy s.grants

end PluginHost
