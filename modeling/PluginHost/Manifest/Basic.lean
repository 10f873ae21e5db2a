import PluginHost.Text.Blank
import PluginHost.PluginId
import PluginHost.Version
import PluginHost.Capability.Basic

/-!
# Manifests

A manifest says who a plugin is and which capabilities its publisher vouches
for. It is read as it stands, and whether it makes sense is a question of its
own.

* `Manifest.flags` is the mask of the capabilities it names.
* `Manifest.problems` lists what is wrong with it.
-/

namespace PluginHost

/-- What a publisher says of a plugin. -/
structure Manifest where
  id : String
  name : String := ""
  version : String
  description : Option String := none
  capabilities : List String := []
  deriving DecidableEq, Repr, Inhabited

namespace Manifest

/-- The mask of the capabilities named; unknown names add nothing. -/
def flags (m : Manifest) : Mask :=
  (Mask.ofNames m.capabilities).1

/-- The version, if the text is one. -/
def semver? (m : Manifest) : Option Version :=
  Version.ofText? m.version

/-- Something wrong with a manifest. -/
inductive Problem
  | missingId
  | badId (id : String)
  | missingName
  | missingVersion
  | badVersion (version : String)
  | unknownCapability (name : String)
  deriving DecidableEq, Repr, Inhabited

/-- The text of a problem. -/
def Problem.message : Problem → String
  | .missingId => "missing or empty id"
  | .badId id => s!"id '{id}' is not a reverse-domain identifier"
  | .missingName => "missing or empty name"
  | .missingVersion => "missing or empty version"
  | .badVersion version => s!"version '{version}' is not valid semver"
  | .unknownCapability name => Capability.unknownName name

def idProblems (m : Manifest) : List Problem :=
  if Blank.allBlank m.id then [.missingId]
  else if PluginId.isValid m.id then []
  else [.badId m.id]

def nameProblems (m : Manifest) : List Problem :=
  if Blank.allBlank m.name then [.missingName] else []

def versionProblems (m : Manifest) : List Problem :=
  if Blank.allBlank m.version then [.missingVersion]
  else if m.semver?.isSome then []
  else [.badVersion m.version]

/-- What is wrong with the capabilities, a problem for each unknown name. -/
def capabilityProblems (m : Manifest) : List Problem :=
  (Mask.ofNames m.capabilities).2.map .unknownCapability

def problems (m : Manifest) : List Problem :=
  m.idProblems ++ m.nameProblems ++ m.versionProblems ++ m.capabilityProblems

end Manifest

end PluginHost
