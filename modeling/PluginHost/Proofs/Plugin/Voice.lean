import PluginHost.Manager.Basic
import PluginHost.Proofs.Event.Log
import PluginHost.Proofs.Plugin.Answers

/-!
# What a hook publishes

A hook has no other dealings with the bus than to publish on it, and it can publish nothing
but events of plugins, under the name that its grant has. What it publishes does not depend
on the bus: on any other bus it would have come to the same.

* `World.said` is what is published while something happens to a world.

Results:
1. `Hook.run_speaks`: all that a bound hook publishes comes from the holder of its grant.
2. `Hook.run_unbound`: a hook that is not bound publishes nothing.
3. `Interface.runStart_speaks`, `runStop_speaks` and `runEvent_speaks`: the same for the
   hooks of a table.
-/

namespace PluginHost

/-! ## Definitions -/

/-- An event that a plugin published, under its own name. -/
def Event.SaidBy (plugin : String) (e : Event) : Prop :=
  ∃ type payload time, e = .plugin plugin type payload time

namespace World

variable {σ : Type}

/-- The world with another bus. -/
def withBus (w : World σ) (bus : Bus Event) : World σ :=
  { w with bus }

/-- The world with a bus that keeps `slots` events and on which one receiver waits. -/
def overheard (w : World σ) (slots : Nat) : World σ :=
  w.withBus { slots, receivers := [⟨0, 0⟩], nextId := 1 }

/-- The events that are published while something happens to a world: those which are kept
by a bus that has room for all of them. How many these are is found out first, with a bus
that keeps none. -/
def said (w : World σ) (happens : World σ → World σ) : List Event :=
  (happens (w.overheard (happens (w.overheard 0)).bus.published)).bus.recent

end World

/-- `Speaks f w events`: whatever the bus, `f` publishes `events` on it, one after the other,
and does nothing else to it; and the bus makes no difference to anything else. -/
def Speaks {σ α β : Type} (f : World σ → α × β × World σ) (w : World σ) (events : List Event) :
    Prop :=
  ∀ bus, f (w.withBus bus) = ((f w).1, (f w).2.1, (f w).2.2.withBus (bus.publishAll events))

/-! ## Publishing -/

@[simp] theorem Bus.publishAll_nil {α : Type} (b : Bus α) : b.publishAll [] = b := rfl

theorem Bus.publishAll_append {α : Type} (b : Bus α) (events more : List α) :
    b.publishAll (events ++ more) = (b.publishAll events).publishAll more :=
  List.foldl_append ..

namespace Bus

variable {α : Type} {b : Bus α}

theorem publish_of_somebody (somebody : b.receivers.isEmpty = false) (e : α) :
    (b.publish e).2 =
      { b with recent := b.keep (b.recent ++ [e]), published := b.published + 1 } := by
  rw [publish, somebody]
  rfl

/-- All events count that somebody receives. -/
theorem published_publishAll (somebody : b.receivers.isEmpty = false) (events : List α) :
    (b.publishAll events).published = b.published + events.length := by
  induction events generalizing b with
  | nil => rfl
  | cons e events ih =>
    have rest := ih (b := (b.publish e).2) (by rwa [b.receivers_publish e])
    refine rest.trans ?_
    rw [publish_of_somebody somebody, List.length_cons, Nat.add_right_comm, Nat.add_assoc]

/-- A bus with room for all events keeps them all, as long as somebody receives them. -/
theorem recent_publishAll (somebody : b.receivers.isEmpty = false) {events : List α}
    (room : b.recent.length + events.length ≤ b.slots) :
    (b.publishAll events).recent = b.recent ++ events := by
  induction events generalizing b with
  | nil => exact (List.append_nil _).symm
  | cons e events ih =>
    rw [List.length_cons] at room
    have kept : (b.publish e).2.recent = b.recent ++ [e] := by
      have none : b.recent.length + 1 - b.slots = 0 := by omega
      rw [publish_of_somebody somebody, keep, List.length_append, List.length_singleton, none,
        List.drop_zero]
    have left : (b.publish e).2.recent.length + events.length ≤ (b.publish e).2.slots := by
      rw [kept, b.slots_publish e, List.length_append, List.length_singleton]
      omega
    have rest := ih (b := (b.publish e).2) (by rwa [b.receivers_publish e]) left
    refine rest.trans ?_
    rw [kept, List.append_assoc, List.singleton_append]

end Bus

namespace World

variable {σ : Type} {w : World σ}

@[simp] theorem withBus_bus (w : World σ) (bus : Bus Event) : (w.withBus bus).bus = bus := rfl
@[simp] theorem withBus_files (w : World σ) (bus : Bus Event) :
    (w.withBus bus).files = w.files := rfl
@[simp] theorem withBus_outside (w : World σ) (bus : Bus Event) :
    (w.withBus bus).outside = w.outside := rfl
@[simp] theorem withBus_self (w : World σ) : w.withBus w.bus = w := rfl
theorem note_withBus (w : World σ) (bus : Bus Event) (e : Entry) :
    (w.withBus bus).note e = (w.note e).withBus bus := rfl
theorem publish_withBus (w : World σ) (bus : Bus Event) (e : Event) :
    (w.withBus bus).publish e = (w.publish e).withBus (bus.publishAll [e]) := rfl

/-- What is said while somebody new may come to listen. -/
theorem said_eq {happens : World σ → World σ} {events : List Event} (bus : Bus Event → Bus Event)
    (speaks : ∀ b, (happens (w.withBus b)).bus = (bus b).publishAll events)
    (listens : ∀ b, (bus b).slots = b.slots ∧ (bus b).recent = b.recent ∧
      (bus b).published = b.published ∧ ∃ more, (bus b).receivers = b.receivers ++ more) :
    w.said happens = events := by
  have heard (slots : Nat) : (bus { slots, receivers := [⟨0, 0⟩], nextId := 1 }).receivers.isEmpty
      = false := by
    obtain ⟨-, -, -, more, receivers⟩ := listens { slots, receivers := [⟨0, 0⟩], nextId := 1 }
    rw [receivers]
    rfl
  unfold said overheard
  rw [speaks, speaks, Bus.published_publishAll (heard 0), (listens _).2.2.1, Nat.zero_add,
    Bus.recent_publishAll (heard _), (listens _).2.1, List.nil_append]
  rw [(listens _).1, (listens _).2.1, List.length_nil, Nat.zero_add]

end World

theorem Event.SaidBy.kind {plugin : String} {e : Event} (said : e.SaidBy plugin) :
    e.kind = .plugin := by
  obtain ⟨_, _, _, rfl⟩ := said
  rfl

namespace Speaks

variable {σ α β γ δ : Type} {f : World σ → α × β × World σ} {w : World σ}
  {events more : List Event}

theorem bus (speaks : Speaks f w events) : (f w).2.2.bus = w.bus.publishAll events :=
  congrArg (fun r => r.2.2.bus) (speaks w.bus)

/-- On another bus, something that gives no answer comes to the same world. -/
theorem world {f : World σ → World σ} (speaks : Speaks (fun w => ((), (), f w)) w events)
    (bus : Bus Event) : f (w.withBus bus) = (f w).withBus (bus.publishAll events) :=
  congrArg (fun r => r.2.2) (speaks bus)

/-- One thing happens after another. -/
theorem bind {g : α → β → World σ → γ × δ × World σ} (first : Speaks f w events)
    (rest : Speaks (g (f w).1 (f w).2.1) (f w).2.2 more) :
    Speaks (fun w => g (f w).1 (f w).2.1 (f w).2.2) w (events ++ more) := by
  intro bus
  simp only [first bus, rest _, Bus.publishAll_append]

/-- What is said is what a listener hears. -/
theorem said (speaks : Speaks f w events) : w.said (fun w => (f w).2.2) = events :=
  World.said_eq id (fun b => congrArg (fun r => r.2.2.bus) (speaks b))
    fun _ => ⟨rfl, rfl, rfl, [], (List.append_nil _).symm⟩

end Speaks

/-! ## Hooks -/

section hooks

variable {σ α : Type}

theorem Hook.noteAnswer_withBus (w : World σ) (bus : Bus Event) (h : Handle) (call : Call)
    (b : Bool) : noteAnswer (w.withBus bus) h call b = (noteAnswer w h call b).withBus bus := by
  unfold noteAnswer
  split <;> rfl

/-- A call publishes at most one event, in the name of the caller. -/
theorem Host.answer_speaks (host : Host) (g : Grant) (w : World σ) (call : Call) :
    ∃ events, (∀ e ∈ events, e.SaidBy g.plugin) ∧
      Speaks (fun w => host.answer (some g) w call) w events := by
  cases call with
  | has m => exact ⟨[], by simp, fun _ => rfl⟩
  | request m => exact ⟨[], by simp, fun _ => rfl⟩
  | service kind => exact ⟨[], by simp, fun _ => rfl⟩
  | log level message => exact ⟨[], by simp, fun _ => rfl⟩
  | emit type payload =>
    simp only [Speaks, Host.answer, Option.elim, World.emit]
    cases Terminated.lossy type with
    | none => exact ⟨[], by simp, fun _ => rfl⟩
    | some t =>
      refine ⟨[.plugin g.plugin t ((Terminated.lossy payload).getD "") w.now], ?_, fun _ => rfl⟩
      intro e he
      exact ⟨_, _, _, List.mem_singleton.mp he⟩

/-- All that a hook publishes comes from the holder of the grant that it is bound to. -/
theorem Hook.run_speaks (host : Host) (h : Handle) (t : Hook σ α) (g : Grant) (w : World σ) :
    ∃ events, (∀ e ∈ events, e.SaidBy g.plugin) ∧ Speaks (t.run host h (some g)) w events := by
  induction t generalizing g w with
  | done a => exact ⟨[], by simp, fun _ => rfl⟩
  | ask call next ih =>
    obtain ⟨g₁, hg₁, ran⟩ := host.answer_ran h g w call
    obtain ⟨events, own, speaks⟩ := host.answer_speaks g w call
    obtain ⟨more, own', speaks'⟩ := ih (host.answer (some g) w call).1 g₁
      (noteAnswer (host.answer (some g) w call).2.2 h call (host.answer (some g) w call).1)
    rw [ran.plugin] at own'
    refine ⟨events ++ more, fun e he => (List.mem_append.mp he).elim (own e) (own' e), ?_⟩
    refine speaks.bind
      (g := fun b caller w => (next b).run host h caller (noteAnswer w h call b)) fun bus => ?_
    simp only [hg₁, noteAnswer_withBus, speaks' bus]
  | read next ih => exact ih w.outside g w
  | write s next ih => exact ih g { w with outside := s }

/-- A hook that has no host leaves nothing behind but its own state. -/
theorem Hook.run_unbound (host : Host) (h : Handle) (t : Hook σ α) (w : World σ) :
    (t.run host h none w).2.2.bus = w.bus := by
  induction t generalizing w with
  | done a => rfl
  | ask call next ih => exact ih false w
  | read next ih => exact ih w.outside w
  | write s next ih => exact ih { w with outside := s }

namespace Interface

variable (i : Interface σ) (host : Host) (h : Handle) (g : Grant) (w : World σ)

theorem runStart_speaks : ∃ events, (∀ e ∈ events, e.SaidBy g.plugin) ∧
    Speaks (i.runStart host h (some g)) w events := by
  obtain ⟨events, own, speaks⟩ :=
    (i.start true).run_speaks host h g (w.note (.starting h true))
  refine ⟨events, own, fun bus => ?_⟩
  simp only [runStart, Option.isSome_some, World.note_withBus, speaks bus]

theorem runStop_speaks : ∃ events, (∀ e ∈ events, e.SaidBy g.plugin) ∧
    Speaks (fun w => ((), i.runStop host h (some g) w)) w events := by
  obtain ⟨events, own, speaks⟩ := i.stop.run_speaks host h g (w.note (.stopped h))
  refine ⟨events, own, fun bus => ?_⟩
  simp only [runStop, World.note_withBus, speaks bus]

variable {type payload : String}

/-- An event whose text cannot cross is not handed over. -/
theorem runEvent_of_nul (nul : Terminated.hasNul type ∨ Terminated.hasNul payload)
    (caller : Caller) : i.runEvent host h type payload caller w = (caller, w) := by
  rw [runEvent]
  rcases nul with nul | nul
  · rw [Terminated.ofText?_eq_none_iff.mpr nul]
  · rw [Terminated.ofText?_eq_none_iff.mpr nul]
    cases Terminated.ofText? type <;> rfl

theorem runEvent_of_text (text : ¬ (Terminated.hasNul type ∨ Terminated.hasNul payload))
    (caller : Caller) : i.runEvent host h type payload caller w =
      ((i.event (some (Utf8.bytesOf type)) (some (Utf8.bytesOf payload))).run host h caller
        (w.note (.event h type payload))).2 := by
  obtain ⟨htype, hpayload⟩ := not_or.mp text
  rw [runEvent, Terminated.ofText?, if_neg htype, Terminated.ofText?, if_neg hpayload]

theorem runEvent_speaks (type payload : String) : ∃ events, (∀ e ∈ events, e.SaidBy g.plugin) ∧
    Speaks (fun w => ((), i.runEvent host h type payload (some g) w)) w events := by
  by_cases nul : Terminated.hasNul type ∨ Terminated.hasNul payload
  · exact ⟨[], by simp, fun bus => by simp only [i.runEvent_of_nul host h _ nul]; rfl⟩
  · obtain ⟨events, own, speaks⟩ :=
      (i.event (some (Utf8.bytesOf type)) (some (Utf8.bytesOf payload))).run_speaks host h g
        (w.note (.event h type payload))
    refine ⟨events, own, fun bus => ?_⟩
    simp only [i.runEvent_of_text host h _ nul, World.note_withBus, speaks bus]

end Interface

end hooks

/-! ## A plugin that talks -/

namespace Parrot

/-- What a parrot does when it hears an event of some type: it answers with one of its own.
Where it has no answer, it says nothing. -/
def hear (answer : Terminated → Terminated) (type : Terminated) : Hook Unit Unit :=
  .ask (.emit (answer type) none) fun _ => .done ()

/-- A plugin that greets when it starts, and then answers what it hears. -/
def table (id : String) (answer : Terminated → Terminated) : Table Unit where
  id := some fun _ => some (Utf8.bytesOf id)
  name := some fun _ => some (Utf8.bytesOf "Parrot")
  version := some fun _ => some (Utf8.bytesOf "1")
  capabilities := some fun _ => 0#64
  start := some fun _ => .ask (.emit (some (Utf8.bytesOf "hello")) none) fun _ => .done true
  stop := some (.done ())
  event := some fun type _ => hear answer type

/-- The answer of a parrot that knows how to reply to a greeting. -/
def polite (type : Terminated) : Terminated :=
  if type = some (Utf8.bytesOf "hello") then some (Utf8.bytesOf "bye") else none

/-- A loader for which every file holds a parrot, with the name of the file as its id. -/
def loader (answer : Terminated → Terminated) : Loader Unit :=
  fun path _ _ => .ok (.table (table ((Path.stem? path).getD "") answer))

/-- A world with two parrots in a directory and a bus that nobody has used. -/
def world (slots : Nat) : World Unit :=
  { files := ⟨.dir [("plugins", .dir [("org.a.so", .file []), ("org.b.so", .file [])])], []⟩
    bus := { slots }
    now := ⟨⟨2024, 1, 1⟩, 0, 0⟩
    outside := () }

end Parrot

end PluginHost
