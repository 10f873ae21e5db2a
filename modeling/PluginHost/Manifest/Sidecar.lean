import PluginHost.Files.Basic

/-!
# Sidecars

A module may come with a signed manifest: two files in the module's directory,
named after the module without its extension.
-/

namespace PluginHost

/-- Where a module's manifest and the signature of it are looked for. -/
structure Sidecar where
  manifest : String
  signature : String
  deriving DecidableEq, Repr, Inhabited

namespace Sidecar

def ofModule (path : String) : Sidecar :=
  let stem := (Path.stem? path).getD ""
  let dir := (Path.parent? path).getD "."
  ⟨Path.join dir (stem ++ ".manifest.json"), Path.join dir (stem ++ ".manifest.sig")⟩

/-- The manifest is there, links followed. -/
def present (s : Sidecar) (fs : Files) : Bool :=
  fs.present s.manifest

end Sidecar

end PluginHost
