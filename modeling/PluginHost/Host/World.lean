import PluginHost.Event.Basic
import PluginHost.Event.Bus
import PluginHost.Files.Basic
import PluginHost.Host.LogLine
import PluginHost.Host.Service

/-!
# The world of the host

All that the host and its plugins act on: files, the event bus, the log, the
clock, and a state outside the host that plugins keep for themselves. The journal
says what was done to modules, in order: when one was opened and closed, which
of its functions were called in between, and what the host answered to it.
-/

namespace PluginHost

/-- An open module. Each opening of a path has a number of its own. -/
structure Handle where
  number : Nat
  path : String
  deriving DecidableEq, Repr, Inhabited

/-- What a plugin asks of the host. Text crosses as a byte string or not at all. -/
inductive Call
  | has (m : Mask)
  | request (m : Mask)
  | service (kind : ServiceKind)
  | log (level message : Terminated)
  | emit (type payload : Terminated)
  deriving DecidableEq, Repr, Inhabited

/-- What a module is asked about itself. -/
inductive Identity
  | id
  | name
  | version
  | capabilities
  deriving DecidableEq, Repr, Inhabited

/-- An entry of the journal. -/
inductive Entry
  | opened (h : Handle)
  | closed (h : Handle)
  | asked (h : Handle) (what : Identity)
  | starting (h : Handle) (bound : Bool)
  | started (h : Handle) (accepted : Bool)
  | event (h : Handle) (type payload : String)
  | stopped (h : Handle)
  | answered (h : Handle) (call : Call) (answer : Bool)
  deriving DecidableEq, Repr, Inhabited

/-- The world, with a state of type `σ` outside the host. -/
structure World (σ : Type) where
  files : Files
  bus : Bus Event
  now : Instant
  logs : List LogLine := []
  journal : List Entry := []
  handles : Nat := 0
  outside : σ

namespace World

variable {σ : Type}

def note (w : World σ) (e : Entry) : World σ :=
  { w with journal := w.journal ++ [e] }

def publish (w : World σ) (e : Event) : World σ :=
  { w with bus := (w.bus.publish e).2 }

/-- Opens a module: a new handle for its path. -/
def openHandle (w : World σ) (path : String) : Handle × World σ :=
  let h : Handle := ⟨w.handles, path⟩
  (h, { w with handles := w.handles + 1 }.note (.opened h))

def closeHandle (w : World σ) (h : Handle) : World σ :=
  w.note (.closed h)

def log (w : World σ) (plugin : String) (level message : Terminated) : World σ :=
  let line := LogLine.ofPlugin plugin ((Terminated.lossy level).getD "")
    ((Terminated.lossy message).getD "")
  { w with logs := w.logs ++ [line] }

/-- The world after a plugin has said something. Without a type nothing is
published; without a payload the payload is empty. -/
def emit (w : World σ) (plugin : String) (type payload : Terminated) : World σ :=
  match Terminated.lossy type with
  | none => w
  | some t => w.publish (.plugin plugin t ((Terminated.lossy payload).getD "") w.now)

end World

/-- The name under which lines are logged that come from no plugin. -/
def unboundName : String := "<unbound>"

/-- A grant that a call may be bound to. A call that is not bound is answered
with no and leaves everything as it is, but for a line in the log. -/
abbrev Caller := Option Grant

namespace Host

variable {σ : Type}

/-- Answers a call: the answer, the caller's grant afterwards, and the world. A
call that has nothing to answer is answered with yes. -/
def answer (h : Host) (caller : Caller) (w : World σ) : Call → Bool × Caller × World σ
  | .has m => (caller.any (·.hasAny m), caller, w)
  | .request m =>
    match caller with
    | none => (false, none, w)
    | some g => ((g.request m).1, some (g.request m).2, w)
  | .service kind => (caller.any fun g => (h.service? kind g).isSome, caller, w)
  | .log level message => (true, caller, w.log (caller.elim unboundName (·.plugin)) level message)
  | .emit type payload => (true, caller, caller.elim w fun g => w.emit g.plugin type payload)

end Host

end PluginHost
