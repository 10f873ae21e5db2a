import PluginHost.Capability.Policy
import PluginHost.Plugin.Table
import PluginHost.Trust.Gate

/-!
# Managed plugins

A manager holds the plugins that are loaded, in the order in which they were, with
what is known of each: who it is, where it came from, its state and its grant.

* `Loader` is how modules are opened.
* `Manager` is what loading and running plugins depends on, and the plugins.
* `Manager.infos` lists the plugins.
-/

namespace PluginHost

/-- How far a plugin has come. -/
inductive PluginState
  | discovered
  | loaded
  | initialized
  | shuttingDown
  | unloaded
  deriving DecidableEq, Repr, Inhabited

/-- The name of a state. -/
def PluginState.name : PluginState → String
  | .discovered => "discovered"
  | .loaded => "loaded"
  | .initialized => "initialized"
  | .shuttingDown => "shutting-down"
  | .unloaded => "unloaded"

/-- What an open module holds: no entry symbol, an entry that gives no table, or
one that gives a table. -/
inductive Code (σ : Type)
  | noEntry
  | noTable
  | table (t : Table σ)

/-- How a module is opened; a loader may look at the files and at the state
outside the host, and gives a reason when it fails. -/
abbrev Loader (σ : Type) := (path : String) → Files → σ → Except String (Code σ)

/-- The symbol that a module exports. -/
def entrySymbol : String := "PluginInit"

/-- What can be seen of a managed plugin. -/
structure PluginInfo where
  id : String
  name : String
  version : String
  path : String
  state : PluginState
  requested : Mask
  granted : Mask
  verified : Bool
  deriving DecidableEq, Repr, Inhabited

/-- A managed plugin. -/
structure Managed (σ : Type) where
  id : String
  name : String
  version : String
  path : String
  requested : Mask
  verified : Bool
  state : PluginState
  grant : Grant
  interface : Interface σ
  handle : Handle

def Managed.info {σ : Type} (p : Managed σ) : PluginInfo :=
  { id := p.id, name := p.name, version := p.version, path := p.path, state := p.state,
    requested := p.requested, granted := p.grant.granted, verified := p.verified }

/-- A manager and its plugins, in load order. -/
structure Manager (σ : Type) where
  loader : Loader σ
  gate : Gate := Gate.opened
  policy : Policy := {}
  host : Host := {}
  plugins : List (Managed σ) := []

namespace Manager

variable {σ : Type}

def find? (m : Manager σ) (id : String) : Option (Managed σ) :=
  m.plugins.find? fun p => p.id == id

/-- The manager with a plugin in the place of the one that had its id. -/
def replace (m : Manager σ) (p : Managed σ) : Manager σ :=
  { m with plugins := m.plugins.map fun q => if q.id = p.id then p else q }

def without (m : Manager σ) (id : String) : Manager σ :=
  { m with plugins := m.plugins.filter fun p => p.id ≠ id }

/-- The state of a plugin. -/
def state? (m : Manager σ) (id : String) : Option PluginState :=
  (m.find? id).map (·.state)

def info? (m : Manager σ) (id : String) : Option PluginInfo :=
  (m.find? id).map (·.info)

def infos (m : Manager σ) : List PluginInfo :=
  m.plugins.map Managed.info

def grant? (m : Manager σ) (id : String) : Option Grant :=
  (m.find? id).map (·.grant)

/-- Asks for more on a plugin's grant, as any holder of the grant may. -/
def request (m : Manager σ) (id : String) (mask : Mask) : Option Bool × Manager σ :=
  match m.find? id with
  | none => (none, m)
  | some p => (some (p.grant.request mask).1, m.replace { p with grant := (p.grant.request mask).2 })

def size (m : Manager σ) : Nat :=
  m.plugins.length

def isEmpty (m : Manager σ) : Bool :=
  m.plugins.isEmpty

def debugAllowed (a : String × Mask) : String :=
  Quoted.quote a.1 ++ ": " ++ a.2.debug

def debugPolicy (p : Policy) : String :=
  "CapabilityPolicy \x7b mode: " ++ p.mode.symbol ++ ", allow: \x7b"
    ++ ", ".intercalate (p.allowed.map debugAllowed) ++ "\x7d \x7d"

def debug (m : Manager σ) : String :=
  "PluginManager \x7b policy: " ++ debugPolicy m.policy ++ ", plugins: ["
    ++ ", ".intercalate (m.plugins.map fun p => Quoted.quote p.id) ++ "] \x7d"

end Manager

end PluginHost
