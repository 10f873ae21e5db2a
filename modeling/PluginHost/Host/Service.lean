import PluginHost.Capability.Grant

/-!
# Services

The host offers objects of three kinds. A plugin gets the one of a kind if it
holds any of the capabilities that the kind asks for.
-/

namespace PluginHost

/-- A kind of service. -/
inductive ServiceKind
  | storage
  | network
  | ui
  deriving DecidableEq, Repr, Inhabited

namespace ServiceKind

def required : ServiceKind → Mask
  | .storage => Capability.storageRead.flag ||| Capability.storageWrite.flag
  | .network => Capability.peerNetwork.flag ||| Capability.masterNetwork.flag
  | .ui => Capability.uiPanel.flag

def name : ServiceKind → String
  | .storage => "storage"
  | .network => "network"
  | .ui => "ui"

def ofName? (s : String) : Option ServiceKind :=
  [storage, network, ui].find? fun k => k.name == s

end ServiceKind

/-- An object that the host offers; its label tells it from the others. -/
structure Service where
  label : String
  deriving DecidableEq, Repr, Inhabited

/-- The objects of each kind, as far as there are any. -/
structure Services where
  storage : Option Service := none
  network : Option Service := none
  ui : Option Service := none
  deriving DecidableEq, Repr, Inhabited

namespace Services

def get? (s : Services) : ServiceKind → Option Service
  | .storage => s.storage
  | .network => s.network
  | .ui => s.ui

/-- The services with the object of a kind set. -/
def put (s : Services) (kind : ServiceKind) (service : Service) : Services :=
  match kind with
  | .storage => { s with storage := some service }
  | .network => { s with network := some service }
  | .ui => { s with ui := some service }

def debugField (name : String) (s : Option Service) : String :=
  name ++ ": " ++ (if s.isSome then "true" else "false")

def debug (s : Services) : String :=
  "HostServices \x7b " ++ debugField "storage" s.storage ++ ", "
    ++ debugField "network" s.network ++ ", " ++ debugField "ui" s.ui ++ " \x7d"

end Services

/-- What the host offers to plugins, and whether it runs without a user
interface. -/
structure Host where
  services : Services := {}
  headless : Bool := false
  deriving DecidableEq, Repr, Inhabited

namespace Host

/-- The service of a kind for the holder of a grant. A headless host offers no
service of the user interface. -/
def service? (h : Host) (kind : ServiceKind) (g : Grant) : Option Service :=
  if kind = .ui ∧ h.headless then none
  else if g.hasAny kind.required then h.services.get? kind
  else none

def debug (h : Host) : String :=
  "PluginHost \x7b services: " ++ h.services.debug
    ++ ", events: EventBus \x7b sender: broadcast::Sender \x7d, headless: "
    ++ (if h.headless then "true" else "false") ++ " \x7d"

end Host

end PluginHost
