import PluginHost.Host.World

/-!
# Hooks

What a plugin does when it is called: it looks at its own state and changes it,
and it calls the host and goes on with the answer, finitely often, until it is
done. A hook that has not been handed a host does not call: it goes on as if it
had been refused.

* `Hook.run` runs a hook against a host.
-/

namespace PluginHost

/-- What a plugin does until it comes to an `α`. -/
inductive Hook (σ α : Type)
  | done (a : α)
  | ask (call : Call) (next : Bool → Hook σ α)
  | read (next : σ → Hook σ α)
  | write (s : σ) (next : Hook σ α)

namespace Hook

variable {σ α β : Type}

/-- A hook whose result is changed. -/
def map (f : α → β) : Hook σ α → Hook σ β
  | done a => done (f a)
  | ask call next => ask call fun b => (next b).map f
  | read next => read fun s => (next s).map f
  | write s next => write s (next.map f)

/-- A hook that goes on when it is done. -/
def bind (t : Hook σ α) (f : α → Hook σ β) : Hook σ β :=
  match t with
  | done a => f a
  | ask call next => ask call fun b => (next b).bind f
  | read next => read fun s => (next s).bind f
  | write s next => write s (next.bind f)

/-- The call is one whose answer is kept in the journal. -/
def isQuestion : Call → Bool
  | .has _ => true
  | .request _ => true
  | .service _ => true
  | .log _ _ => false
  | .emit _ _ => false

/-- The world after a call has been answered. -/
def noteAnswer (w : World σ) (h : Handle) (call : Call) (answer : Bool) : World σ :=
  if isQuestion call then w.note (.answered h call answer) else w

/-- Runs a hook of an open module to its end: its result, the grant it was bound
to as it is afterwards, and the world. -/
def run (host : Host) (h : Handle) : Hook σ α → Caller → World σ → α × Caller × World σ
  | done a, caller, w => (a, caller, w)
  | ask call next, caller, w =>
    match caller with
    | none => (next false).run host h none w
    | some g =>
      let (b, caller, w) := host.answer (some g) w call
      (next b).run host h caller (noteAnswer w h call b)
  | read next, caller, w => (next w.outside).run host h caller w
  | write s next, caller, w => next.run host h caller { w with outside := s }

end Hook

end PluginHost
