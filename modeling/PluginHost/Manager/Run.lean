import PluginHost.Manager.Basic

/-!
# Running plugins

A loaded plugin is started once; if it refuses it stays loaded and may be asked
again. Events are handed to the plugins that have been started, and each plugin
acts under its own grant.

* `Manager.start` starts a plugin, and `Manager.startAll` all that are not yet.
* `Manager.dispatch` hands an event to all but its source.
-/

namespace PluginHost.Manager

variable {σ : Type}

def refusal : String := "initialize returned false"

/-- The grant after a hook that was bound to `old`. -/
def grantAfter (old : Grant) (caller : Caller) : Grant :=
  caller.getD old

/-- Starts a plugin that is loaded. -/
def start (m : Manager σ) (id : String) (w : World σ) : Except Error Unit × Manager σ × World σ :=
  match m.find? id with
  | none => (.error (.pluginNotFound id), m, w)
  | some p =>
    if p.state ≠ .loaded then
      (.error (.invalidState id PluginState.loaded.name p.state.name), m, w)
    else
      let (accepted, caller, w) := p.interface.runStart m.host p.handle (some p.grant) w
      let p := { p with grant := grantAfter p.grant caller }
      if accepted then
        (.ok (), m.replace { p with state := .initialized }, w.publish (.pluginInitialized id))
      else
        (.error (.initRefused id), m.replace p, w.publish (.pluginError id refusal))

/-- Starts plugins one after the other; how many accepted. -/
def startEach (m : Manager σ) (w : World σ) : List String → Nat × Manager σ × World σ
  | [] => (0, m, w)
  | id :: rest =>
    let (r, m, w) := m.start id w
    let (n, m, w) := m.startEach w rest
    (n + (if r.toBool then 1 else 0), m, w)

/-- Starts every plugin that is loaded, in load order; how many accepted. -/
def startAll (m : Manager σ) (w : World σ) : Nat × Manager σ × World σ :=
  m.startEach w ((m.plugins.filter fun p => p.state = .loaded).map (·.id))

/-- The plugin is one that an event from `source` is handed to. -/
def receives (source : Option String) (p : Managed σ) : Bool :=
  p.state = .initialized && source ≠ some p.id

/-- Hands an event to those of the plugins that receive it, in order; to how many. -/
def dispatchTo (host : Host) (source : Option String) (type payload : String) :
    List (Managed σ) → World σ → Nat × List (Managed σ) × World σ
  | [], w => (0, [], w)
  | p :: rest, w =>
    if receives source p then
      let (caller, w) := p.interface.runEvent host p.handle type payload (some p.grant) w
      let (n, ps, w) := dispatchTo host source type payload rest w
      (n + 1, { p with grant := grantAfter p.grant caller } :: ps, w)
    else
      let (n, ps, w) := dispatchTo host source type payload rest w
      (n, p :: ps, w)

/-- Hands an event to every started plugin but its source; to how many. -/
def dispatch (m : Manager σ) (source : Option String) (type payload : String) (w : World σ) :
    Nat × Manager σ × World σ :=
  let (n, plugins, w) := dispatchTo m.host source type payload m.plugins w
  (n, { m with plugins }, w)

end PluginHost.Manager
