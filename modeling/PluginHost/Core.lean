import PluginHost.Config.Loader
import PluginHost.FirstRun
import PluginHost.Manager.Load
import PluginHost.Manager.Release
import PluginHost.Manager.Run

/-!
# The core

The core holds what a run of the host needs. While it runs it has a manager with
plugins, and a receiver on the bus through which the events of plugins are routed
to the other plugins.

* `Core.start` loads and starts the plugins of the configured directory.
* `Core.pump` routes what is waiting. It ends when nothing is waiting any more,
  which may never be, as plugins may publish new events while they are handed
  others.
* `Core.shutdown` releases all plugins.
-/

namespace PluginHost

/-- What the core has while it runs. -/
structure Running (σ : Type) where
  manager : Manager σ
  receiver : Nat

/-- The core of the host. -/
structure Core (σ : Type) where
  config : Config
  services : Services := {}
  loader : Loader σ
  programs : Program.Installed
  running : Option (Running σ) := none

namespace Core

variable {σ : Type}

def bus? (c : Config) : Option (Bus Event) :=
  Bus.new? c.runtime.eventCapacity

/-- What came of a start: the plugins that were started, in load order, those that
refused and have been released, the candidates that were not loaded, and whether
the host had never been started before. -/
structure Start where
  started : List String := []
  refused : List String := []
  failures : List Manager.LoadFailure := []
  firstRun : Bool := false
  deriving DecidableEq, Repr, Inhabited

def isRunning (c : Core σ) : Bool :=
  c.running.isSome

def manager? (c : Core σ) : Option (Manager σ) :=
  c.running.map (·.manager)

/-- A manager without plugins, as the configuration asks for it. -/
def newManager (c : Core σ) : Manager σ :=
  { loader := c.loader
    gate := Gate.ofSettings c.programs c.config.plugins
    policy := c.config.plugins.toPolicy
    host := ⟨c.services, c.config.runtime.headless⟩ }

/-- Marks the first run; a marker that cannot be written is done without. -/
def markFirst (configDir : String) (w : World σ) : Bool × World σ :=
  if FirstRun.isFirst configDir w.files then
    (true, { w with files := (FirstRun.mark configDir w.now w.files).2 })
  else (false, w)

/-- Starts the core. The receiver is there before any plugin runs, so that nothing
that plugins publish while they are started is lost. -/
def start (c : Core σ) (env : Environment) (w : World σ) :
    Except Error Start × Core σ × World σ :=
  match c.running with
  | some _ => (.error .alreadyRunning, c, w)
  | none =>
    let settings := c.config.plugins
    let (receiver, bus) := w.bus.subscribe
    let (report, m, w) :=
      c.newManager.discover settings.dir settings.extension { w with bus }
    let (_, m, w) := m.startAll w
    let (refused, m, w) := m.unloadUnstarted w
    let (firstRun, w) := markFirst (c.config.directory env) w
    (.ok { started := m.infos.map (·.id), refused, failures := report.failures, firstRun },
      { c with running := some ⟨m, receiver⟩ }, w)

/-- Hands an event of a plugin to the other plugins; other events are not for
plugins. -/
def route (m : Manager σ) (e : Event) (w : World σ) : Bool × Manager σ × World σ :=
  match e with
  | .plugin source type payload _ => (true, (m.dispatch (some source) type payload w).2)
  | _ => (false, m, w)

/-- Receives and routes until nothing is waiting: how many events of plugins there
were. There is no answer if `fuel` receives do not get so far. -/
def pumpFrom : (fuel : Nat) → Running σ → World σ → Option (Nat × Running σ × World σ)
  | 0, _, _ => none
  | fuel + 1, r, w =>
    match w.bus.receive r.receiver with
    | (.event e, bus) =>
      let (routed, manager, w) := route r.manager e { w with bus }
      (pumpFrom fuel { r with manager } w).map fun (n, r, w) =>
        (n + (if routed then 1 else 0), r, w)
    | (.lagged _, bus) => pumpFrom fuel r { w with bus }
    | (.empty, bus) => some (0, r, { w with bus })
    | (.closed, bus) => some (0, r, { w with bus })

/-- Routes what is waiting, in at most `fuel` receives. -/
def pump (fuel : Nat) (c : Core σ) (w : World σ) : Option (Except Error Nat × Core σ × World σ) :=
  match c.running with
  | none => some (.error .notRunning, c, w)
  | some r => (pumpFrom fuel r w).map fun (n, r, w) => (.ok n, { c with running := some r }, w)

/-- Routes events until all that is published has been routed and the host is to
stop. -/
def run (fuel : Nat) (c : Core σ) (w : World σ) :
    Option (Except Error Unit × Core σ × World σ) :=
  (pump fuel c w).map fun (r, c, w) => (r.map fun _ => (), c, w)

/-- Shuts down: this is published first, and then all plugins are released. -/
def shutdown (c : Core σ) (w : World σ) : Except Error Unit × Core σ × World σ :=
  match c.running with
  | none => (.error .notRunning, c, w)
  | some r =>
    let (_, w) := r.manager.shutdown (w.publish .shutdown)
    (.ok (), { c with running := none }, { w with bus := w.bus.unsubscribe r.receiver })

/-- The end of a core: if it is still running, it is shut down. -/
def close (c : Core σ) (w : World σ) : World σ :=
  (c.shutdown w).2.2

end Core

end PluginHost
