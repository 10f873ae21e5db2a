import PluginHost.Proofs.Plugin.Voice

/-!
# Bindings

A host may be bound to any number of grants at a time. All bindings share the host and its
world, and each call says which of them it is made through, if any. What a binding gets to
know and to hold depends on nothing but its own calls:

* an answer comes from the caller's grant, and no other grant changes with it;
* the bus and the log, which all bindings share, can only be written to.

Bindings are told apart by what they are, never by the ids of their plugins.

Results:
1. `Host.answer_ignores_world`: nothing that others leave behind in the world has a part in an
   answer.
2. `Bindings.make_seen` and `Bindings.make_hidden`: what a call does to a binding, if it is its
   own call and if it is not.
3. `bindings_are_isolated`: in any order of calls, each binding fares as if the others made
   none.
-/

namespace PluginHost

/-! ## Definitions -/

/-- What a call on a table of the host brings back. -/
inductive Reply
  | nothing
  | truth (b : Bool)
  | service (object : Option Service)
  deriving DecidableEq, Repr, Inhabited

/-- A reply that gives nothing away. -/
def Reply.Refusal (r : Reply) : Prop :=
  r = .nothing ∨ r = .truth false ∨ r = .service none

/-- What a call brings back: where the host looks for a service, the object itself. -/
def Host.reply {σ : Type} (host : Host) (caller : Caller) (w : World σ) : Call → Reply
  | .has m => .truth (host.answer caller w (.has m)).1
  | .request m => .truth (host.answer caller w (.request m)).1
  | .service kind => .service (caller.bind (host.service? kind))
  | .log _ _ => .nothing
  | .emit _ _ => .nothing

/-- The events that a call publishes, by whom and when it is made. -/
def Call.publishes (caller : Caller) (time : Instant) : Call → List Event
  | .emit type payload =>
    match caller, Terminated.lossy type with
    | some g, some t => [.plugin g.plugin t ((Terminated.lossy payload).getD "") time]
    | _, _ => []
  | _ => []

/-- A call at some time, through one of the bindings or through none. -/
structure TableCall (ι : Type) where
  binding : Option ι
  time : Instant
  call : Call
  deriving DecidableEq, Repr

/-- A call, what it brought back, what its binding holds since, and what was published. -/
structure Exchange (ι : Type) where
  made : TableCall ι
  reply : Reply
  holds : Option Mask
  said : List Event
  deriving DecidableEq, Repr

/-- The bindings of a host, each with a grant of its own, and the world. -/
structure Bindings (ι σ : Type) where
  grants : ι → Grant
  world : World σ

namespace TableCall

variable {ι : Type}

/-- The call is made through the binding `i`. -/
abbrev Through (i : ι) (c : TableCall ι) : Prop :=
  c.binding = some i

end TableCall

namespace Bindings

variable {ι σ : Type}

/-- The grant that a call is answered from. -/
def caller (b : Bindings ι σ) (c : TableCall ι) : Caller :=
  c.binding.map b.grants

/-- The world at the time of a call. -/
def worldAt (b : Bindings ι σ) (c : TableCall ι) : World σ :=
  { b.world with now := c.time }

/-- The host answers a call; the grant that comes of it is the caller's. -/
def make [DecidableEq ι] (host : Host) (b : Bindings ι σ) (c : TableCall ι) : Bindings ι σ :=
  let (_, after, w) := host.answer (b.caller c) (b.worldAt c) c.call
  { grants := match c.binding, after with
      | some i, some g => Function.update b.grants i g
      | _, _ => b.grants
    world := w }

/-- What there is to see of a call. -/
def exchange (host : Host) (b : Bindings ι σ) (c : TableCall ι) : Exchange ι where
  made := c
  reply := host.reply (b.caller c) (b.worldAt c) c.call
  holds := (host.answer (b.caller c) (b.worldAt c) c.call).2.1.map (·.granted)
  said := (b.worldAt c).said fun w => (host.answer (b.caller c) w c.call).2.2

variable [DecidableEq ι]

/-- Calls one after the other. -/
def run (host : Host) (b : Bindings ι σ) (calls : List (TableCall ι)) : Bindings ι σ :=
  calls.foldl (make host) b

/-- What there is to see of calls one after the other. -/
def exchanges (host : Host) (b : Bindings ι σ) : List (TableCall ι) → List (Exchange ι)
  | [] => []
  | c :: rest => b.exchange host c :: (b.make host c).exchanges host rest

end Bindings

/-! ## Answers -/

namespace Host

variable {σ : Type} (host : Host)

/-- An answer, and the grant afterwards, come from the caller's grant alone. -/
theorem answer_ignores_world {τ : Type} (caller : Caller) (w : World σ) (v : World τ)
    (call : Call) : (host.answer caller w call).1 = (host.answer caller v call).1 ∧
      (host.answer caller w call).2.1 = (host.answer caller v call).2.1 := by
  cases call with
  | request m => cases caller <;> exact ⟨rfl, rfl⟩
  | has m => exact ⟨rfl, rfl⟩
  | service kind => exact ⟨rfl, rfl⟩
  | log level message => exact ⟨rfl, rfl⟩
  | emit type payload => exact ⟨rfl, rfl⟩

theorem reply_ignores_world {τ : Type} (caller : Caller) (w : World σ) (v : World τ)
    (call : Call) : host.reply caller w call = host.reply caller v call := by
  cases call with
  | has m => exact congrArg Reply.truth (host.answer_ignores_world caller w v _).1
  | request m => exact congrArg Reply.truth (host.answer_ignores_world caller w v _).1
  | service kind => rfl
  | log level message => rfl
  | emit type payload => rfl

/-- What a call publishes is told by the caller and the time, and it does nothing else to the
bus. -/
theorem answer_publishes (caller : Caller) (w : World σ) (call : Call) :
    Speaks (fun w => host.answer caller w call) w (call.publishes caller w.now) := by
  intro bus
  cases call with
  | has m => rfl
  | request m => cases caller <;> rfl
  | service kind => rfl
  | log level message => rfl
  | emit type payload =>
    cases caller with
    | none => rfl
    | some g =>
      simp only [answer, Option.elim, World.emit, Call.publishes]
      cases Terminated.lossy type <;> rfl

/-- A call that comes through no binding is refused, and nothing comes of it. -/
theorem answer_unbound (w : World σ) (call : Call) :
    (host.reply none w call).Refusal ∧ (host.answer none w call).2.1 = none ∧
      call.publishes none w.now = [] := by
  cases call with
  | has m => exact ⟨.inr (.inl rfl), rfl, rfl⟩
  | request m => exact ⟨.inr (.inl rfl), rfl, rfl⟩
  | service kind => exact ⟨.inr (.inr rfl), rfl, rfl⟩
  | log level message => exact ⟨.inl rfl, rfl, rfl⟩
  | emit type payload => exact ⟨.inl rfl, rfl, rfl⟩

end Host

theorem Call.publishes_saidBy (g : Grant) (time : Instant) (call : Call) :
    ∀ e ∈ call.publishes (some g) time, e.SaidBy g.plugin := by
  intro e he
  cases call with
  | emit type payload =>
    simp only [publishes] at he
    cases text : Terminated.lossy type with
    | none =>
      rw [text] at he
      exact absurd he List.not_mem_nil
    | some t =>
      rw [text] at he
      exact ⟨t, _, time, List.mem_singleton.mp he⟩
  | _ => exact absurd he List.not_mem_nil

/-! ## One call -/

namespace Bindings

variable {ι σ : Type} (host : Host) {b b' : Bindings ι σ} {c : TableCall ι} {i : ι}

@[simp] theorem exchange_made (b : Bindings ι σ) (c : TableCall ι) :
    (b.exchange host c).made = c := rfl

theorem exchange_said (b : Bindings ι σ) (c : TableCall ι) :
    (b.exchange host c).said = c.call.publishes (b.caller c) c.time :=
  (host.answer_publishes (b.caller c) (b.worldAt c) c.call).said

/-- Callers with the same grant see the same of a call. -/
theorem exchange_congr (same : b.caller c = b'.caller c) :
    b.exchange host c = b'.exchange host c := by
  have reply := host.reply_ignores_world (b'.caller c) (b.worldAt c) (b'.worldAt c) c.call
  have after := (host.answer_ignores_world (b'.caller c) (b.worldAt c) (b'.worldAt c) c.call).2
  have said : (b.exchange host c).said = (b'.exchange host c).said := by
    rw [exchange_said, exchange_said, same]
  simp only [exchange] at said ⊢
  rw [said, same, reply, after]

variable [DecidableEq ι]

/-- The bus after a call. -/
theorem make_bus (b : Bindings ι σ) (c : TableCall ι) :
    (b.make host c).world.bus = b.world.bus.publishAll (b.exchange host c).said := by
  rw [exchange_said]
  exact (host.answer_publishes (b.caller c) (b.worldAt c) c.call).bus

/-- A call through no binding leaves all grants as they are. -/
theorem make_unbound (unbound : c.binding = none) : (b.make host c).grants = b.grants := by
  simp only [make, unbound]

/-- The grant of the caller, after its call. -/
theorem make_through (own : c.Through i) :
    some ((b.make host c).grants i) = (host.answer (b.caller c) (b.worldAt c) c.call).2.1 := by
  have bound : b.caller c = some (b.grants i) := by rw [caller, own, Option.map_some]
  obtain ⟨g, hg, -⟩ := host.answer_ran default (b.grants i) (b.worldAt c) c.call
  simp only [make, bound, hg, own, Function.update_self]

/-- What a call does to the binding that makes it depends on its grant alone. -/
theorem make_seen (own : c.Through i) (same : b.grants i = b'.grants i) :
    b.exchange host c = b'.exchange host c ∧
      (b.make host c).grants i = (b'.make host c).grants i := by
  have callers : b.caller c = b'.caller c := by
    rw [caller, caller, own, Option.map_some, Option.map_some, same]
  refine ⟨exchange_congr host callers, Option.some.inj ?_⟩
  rw [make_through host own, make_through host own, callers]
  exact (host.answer_ignores_world _ _ _ _).2

/-- A call does nothing to a binding that does not make it. -/
theorem make_hidden (foreign : ¬ c.Through i) : (b.make host c).grants i = b.grants i := by
  cases bound : c.binding with
  | none => rw [make_unbound host bound]
  | some j =>
    have other : i ≠ j := fun same => foreign (same ▸ bound)
    simp only [make, bound]
    cases (host.answer (b.caller c) (b.worldAt c) c.call).2.1 with
    | none => rfl
    | some g => exact Function.update_of_ne other g b.grants

/-- The id and the ceiling of a grant are for good. -/
theorem make_plugin (b : Bindings ι σ) (c : TableCall ι) (i : ι) :
    ((b.make host c).grants i).plugin = (b.grants i).plugin ∧
      ((b.make host c).grants i).ceiling = (b.grants i).ceiling := by
  by_cases own : c.Through i
  · have bound : b.caller c = some (b.grants i) := by rw [caller, own, Option.map_some]
    obtain ⟨g, hg, ran⟩ := host.answer_ran default (b.grants i) (b.worldAt c) c.call
    have after : (b.make host c).grants i = g :=
      Option.some.inj ((make_through host own).trans (by rw [bound, hg]))
    rw [after]
    exact ⟨ran.plugin, ran.ceiling⟩
  · rw [make_hidden host own]
    exact ⟨rfl, rfl⟩

/-- Only a request may change a grant. -/
theorem make_grants (quiet : ∀ m, c.call ≠ .request m) : (b.make host c).grants = b.grants := by
  cases bound : c.binding with
  | none => exact make_unbound host bound
  | some i =>
    have kept : (host.answer (b.caller c) (b.worldAt c) c.call).2.1 = some (b.grants i) := by
      have holder : b.caller c = some (b.grants i) := by rw [caller, bound, Option.map_some]
      rw [holder]
      cases call : c.call with
      | request m => exact absurd call (quiet m)
      | _ => rfl
    simp only [make, bound, kept, Function.update_eq_self]

/-! ## Calls in a row -/

/-- A binding that starts with the same grant fares the same with its own calls alone. -/
theorem run_own (calls : List (TableCall ι)) (same : b.grants i = b'.grants i) :
    (b.exchanges host calls).filter (·.made.Through i) =
        b'.exchanges host (calls.filter (·.Through i)) ∧
      (b.run host calls).grants i = (b'.run host (calls.filter (·.Through i))).grants i := by
  induction calls generalizing b b' with
  | nil => exact ⟨rfl, same⟩
  | cons c rest ih =>
    by_cases own : c.Through i
    · obtain ⟨seen, after⟩ := make_seen host own same
      obtain ⟨exchanges, grants⟩ := ih after
      have alone : (c :: rest).filter (·.Through i) = c :: rest.filter (·.Through i) := by
        rw [List.filter_cons, if_pos (decide_eq_true own)]
      have seen' : (b.exchanges host (c :: rest)).filter (·.made.Through i) =
          b.exchange host c :: ((b.make host c).exchanges host rest).filter (·.made.Through i) := by
        rw [Bindings.exchanges, List.filter_cons, exchange_made, if_pos (decide_eq_true own)]
      rw [alone, seen', exchanges, seen]
      exact ⟨rfl, grants⟩
    · obtain ⟨exchanges, grants⟩ := ih ((make_hidden host own).trans same)
      have alone : (c :: rest).filter (·.Through i) = rest.filter (·.Through i) := by
        rw [List.filter_cons, if_neg (mt of_decide_eq_true own)]
      have unseen : (b.exchanges host (c :: rest)).filter (·.made.Through i) =
          ((b.make host c).exchanges host rest).filter (·.made.Through i) := by
        rw [Bindings.exchanges, List.filter_cons, exchange_made,
          if_neg (mt of_decide_eq_true own)]
      rw [alone, unseen, exchanges]
      exact ⟨rfl, grants⟩

theorem run_plugin (b : Bindings ι σ) (calls : List (TableCall ι)) (i : ι) :
    ((b.run host calls).grants i).plugin = (b.grants i).plugin := by
  induction calls generalizing b with
  | nil => rfl
  | cons c rest ih => exact (ih (b.make host c)).trans (make_plugin host b c i).1

/-- Each exchange is one at some moment of the run. -/
theorem exchanges_mem {calls : List (TableCall ι)} {x : Exchange ι}
    (mem : x ∈ b.exchanges host calls) : ∃ done c rest, calls = done ++ c :: rest ∧
      x = (b.run host done).exchange host c := by
  induction calls generalizing b with
  | nil => exact absurd mem List.not_mem_nil
  | cons c rest ih =>
    rcases List.mem_cons.mp mem with rfl | mem
    · exact ⟨[], c, rest, rfl, rfl⟩
    · obtain ⟨done, c', rest', rfl, hx⟩ := ih mem
      exact ⟨c :: done, c', rest', rfl, hx⟩

theorem run_bus (b : Bindings ι σ) (calls : List (TableCall ι)) :
    (b.run host calls).world.bus =
      b.world.bus.publishAll ((b.exchanges host calls).flatMap (·.said)) := by
  induction calls generalizing b with
  | nil => rfl
  | cons c rest ih =>
    have first := make_bus host b c
    refine (ih (b.make host c)).trans ?_
    rw [first, exchanges, List.flatMap_cons, Bus.publishAll_append]

end Bindings

/-! ## Isolation -/

/-- **Bindings are isolated.** Whatever is called, by whom and in what order:
* a binding's own calls bring back, publish and leave it with what they would without the
  calls of the others, and at any moment it holds what it would hold without them;
* what is published through a binding carries the id of its plugin;
* a call through no binding is refused and publishes nothing;
* such a call changes no grant, and no call but a request does;
* nothing else is published. -/
theorem bindings_are_isolated {ι σ : Type} [DecidableEq ι] (host : Host) (b : Bindings ι σ)
    (calls : List (TableCall ι)) :
    (∀ i, (b.exchanges host calls).filter (·.made.Through i) =
      b.exchanges host (calls.filter (·.Through i))) ∧
    (∀ i n, (b.run host (calls.take n)).grants i =
      (b.run host ((calls.take n).filter (·.Through i))).grants i) ∧
    (∀ x ∈ b.exchanges host calls, ∀ i, x.made.Through i →
      ∀ e ∈ x.said, e.SaidBy (b.grants i).plugin) ∧
    (∀ x ∈ b.exchanges host calls, x.made.binding = none → x.reply.Refusal ∧ x.said = []) ∧
    (∀ done c rest, calls = done ++ c :: rest →
      (c.binding = none ∨ ∀ m, c.call ≠ .request m) →
      (b.run host (done ++ [c])).grants = (b.run host done).grants) ∧
    (b.run host calls).world.bus =
      b.world.bus.publishAll ((b.exchanges host calls).flatMap (·.said)) := by
  refine ⟨fun i => (Bindings.run_own host calls rfl).1,
    fun i n => (Bindings.run_own host _ rfl).2, ?_, ?_, ?_, b.run_bus host calls⟩
  · intro x mem i own e he
    obtain ⟨done, c, rest, -, rfl⟩ := Bindings.exchanges_mem host mem
    rw [Bindings.exchange_said, Bindings.caller, show c.binding = some i from own,
      Option.map_some] at he
    rw [← b.run_plugin host done i]
    exact Call.publishes_saidBy _ _ _ e he
  · intro x mem unbound
    obtain ⟨done, c, rest, -, rfl⟩ := Bindings.exchanges_mem host mem
    have nobody : (b.run host done).caller c = none := by
      rw [Bindings.caller, show c.binding = none from unbound, Option.map_none]
    obtain ⟨refused, -, silent⟩ :=
      host.answer_unbound ((b.run host done).worldAt c) c.call
    refine ⟨?_, ?_⟩
    · simpa only [Bindings.exchange, nobody] using refused
    · rw [Bindings.exchange_said, nobody]
      exact silent
  · intro done c rest _ harmless
    have last : b.run host (done ++ [c]) = (b.run host done).make host c :=
      List.foldl_append ..
    rw [last]
    exact harmless.elim (Bindings.make_unbound host) (Bindings.make_grants host)

namespace Twins

/-- A host with a store. -/
def host : Host := { services := { storage := some ⟨"store"⟩ } }

/-- Two bindings of plugins with one id, of which the second may not have the store. -/
def bindings : Bindings Bool Unit where
  grants second := .new "org.twin" 0#64
    (if second then 0#64 else Capability.storageRead.flag)
  world := Parrot.world 4

def at? (binding : Option Bool) (call : Call) : TableCall Bool :=
  ⟨binding, ⟨⟨2024, 1, 1⟩, 0, 0⟩, call⟩

/-- The first asks for the store and gets it; the second tries to profit by it, and so does a
call that comes from nowhere. -/
def calls : List (TableCall Bool) :=
  [at? (some false) (.request Capability.storageRead.flag), at? (some true) (.service .storage),
    at? (some false) (.service .storage), at? none (.service .storage),
    at? (some true) (.request Capability.storageRead.flag),
    at? (some true) (.emit (some (Utf8.bytesOf "hello")) none)]

end Twins

/-- The second twin gets nothing by the first one's grant. -/
theorem twins_are_isolated :
    ((Twins.bindings.exchanges Twins.host Twins.calls).filter (·.made.Through true)).map
        (fun x => (x.reply, x.holds)) =
      [(.service none, some 0#64), (.truth false, some 0#64), (.nothing, some 0#64)] ∧
    ((Twins.bindings.run Twins.host (Twins.calls.take 3)).grants true).granted = 0#64 ∧
    ((Twins.bindings.run Twins.host (Twins.calls.take 3)).grants false).granted =
      Capability.storageRead.flag := by
  obtain ⟨exchanges, grants, -⟩ :=
    bindings_are_isolated Twins.host Twins.bindings Twins.calls
  rw [exchanges true, grants true, grants false]
  decide +kernel

end PluginHost
