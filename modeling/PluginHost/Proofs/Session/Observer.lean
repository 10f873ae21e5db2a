import PluginHost.Proofs.Event.Ledger
import PluginHost.Proofs.Session.Origin
import PluginHost.Proofs.Session.Roll

/-!
# Who listens knows the plugins

A receiver that was there before the first action of a session, and that never lost an
event, can tell from the events alone which plugins are managed and how far each has come.
Plugins cannot deceive it, as nothing they do publishes anything but what they say, under
their own names.

Results:
1. `Watch.Faithful.step`: what has been heard and what is still owed make up the roll.
2. `events_tell_roll`: the same for who has heard everything, and what a plugin can publish.
-/

namespace PluginHost

-- Nothing here depends on how paths are taken apart, so reduction stops before it.
attribute [local irreducible] Gate.check Files.present

/-! ## Definitions -/

/-- What happens while somebody listens: the session acts, and receivers come to the bus,
read from it, and leave it. Nobody publishes but the session. -/
inductive Deed (σ : Type)
  | act (a : Action σ)
  | join
  | read (id : Nat)
  | leave (id : Nat)

/-- A session with a receiver on its bus, and what this receiver has been told. -/
structure Watch (σ : Type) where
  session : Session σ
  receiver : Nat
  told : List (Received Event) := []

namespace Watch

variable {σ : Type}

/-- A new session to which somebody listens from the start. -/
def new (m : Manager σ) (w : World σ) : Watch σ :=
  { session := .new m (w.withBus w.bus.subscribe.2), receiver := w.bus.subscribe.1 }

def bus (v : Watch σ) : Bus Event :=
  v.session.world.bus

def withBus (v : Watch σ) (bus : Bus Event) : Watch σ :=
  { v with session := v.session.move (v.session.manager, v.session.world.withBus bus) }

/-- The watch after a deed. -/
def step (v : Watch σ) : Deed σ → Watch σ
  | .act a => { v with session := v.session.perform a }
  | .join => v.withBus v.bus.subscribe.2
  | .read id =>
    { v.withBus (v.bus.receive id).2 with
      told := if id = v.receiver then v.told ++ [(v.bus.receive id).1] else v.told }
  | .leave id => v.withBus (v.bus.unsubscribe id)

def run (v : Watch σ) (deeds : List (Deed σ)) : Watch σ :=
  deeds.foldl step v

/-- The events that the receiver has been told of, and those that it is still owed, make up
the roll. -/
def Faithful (v : Watch σ) : Prop :=
  ∃ events, v.bus.Tells v.receiver v.told events ∧ Roll.noteAll [] events = v.session.manager.roll

end Watch

/-! ## What every deed keeps -/

namespace Watch

variable {σ : Type} {v : Watch σ}

/-- A deed is a row of steps of the session. -/
theorem step_steps (valid : v.session.Valid) (d : Deed σ) :
    Steps v.session (v.step d).session := by
  cases d with
  | act a => exact Session.act_steps valid _
  | join => exact .single (.idles rfl rfl)
  | read id => exact .single (.idles rfl rfl)
  | leave id => exact .single (.idles rfl rfl)

theorem run_steps (valid : v.session.Valid) (deeds : List (Deed σ)) :
    Steps v.session (v.run deeds).session := by
  induction deeds generalizing v with
  | nil => exact .refl
  | cons d rest ih =>
    have first := step_steps valid d
    exact first.trans (ih (first.valid valid))

theorem receiver_step (v : Watch σ) (d : Deed σ) : (v.step d).receiver = v.receiver := by
  cases d <;> rfl

namespace Faithful

theorem new (m : Manager σ) {w : World σ} (used : w.bus.Used) : (Watch.new m w).Faithful :=
  ⟨[], .new (Ledger.sound_of_used used), rfl⟩

/-- Every deed keeps the watch faithful, as long as its receiver stays. -/
theorem step (faithful : v.Faithful) (valid : v.session.Valid) {d : Deed σ}
    (stays : d ≠ .leave v.receiver) : (v.step d).Faithful := by
  obtain ⟨events, tells, roll⟩ := faithful
  cases d with
  | act a =>
    obtain ⟨more, speaks, after⟩ := Session.perform_reports valid.ids a
    have bus : (v.step (.act a)).bus = v.bus.publishAll more := speaks.bus
    refine ⟨events ++ more, ?_, ?_⟩
    · rw [bus]
      exact tells.publishAll more
    · rw [Roll.noteAll_append, roll]
      exact after
  | join => exact ⟨events, tells.of_subscribe, roll⟩
  | read id =>
    by_cases own : id = v.receiver
    · subst own
      refine ⟨events, ?_, roll⟩
      rw [Watch.step, if_pos rfl]
      exact tells.receive
    · refine ⟨events, ?_, roll⟩
      rw [Watch.step, if_neg own]
      exact tells.of_receive own
  | leave id =>
    have other : id ≠ v.receiver := fun same => stays (by rw [same])
    exact ⟨events, tells.of_unsubscribe other, roll⟩

theorem run (faithful : v.Faithful) (valid : v.session.Valid) {deeds : List (Deed σ)}
    (stays : .leave v.receiver ∉ deeds) : (v.run deeds).Faithful := by
  induction deeds generalizing v with
  | nil => exact faithful
  | cons d rest ih =>
    rw [List.mem_cons, not_or] at stays
    refine ih (faithful.step valid (Ne.symm stays.1)) ((step_steps valid d).valid valid) ?_
    rw [receiver_step]
    exact stays.2

/-- Who never lost an event and has nothing left to read knows the roll. -/
theorem roll_eq (faithful : v.Faithful) (never : ∀ n, .lagged n ∉ v.told)
    (caughtUp : (v.bus.receive v.receiver).1 = .empty) :
    Roll.noteAll [] (v.told.filterMap Received.event?) = v.session.manager.roll := by
  obtain ⟨events, tells, roll⟩ := faithful
  rw [(tells.cover caughtUp).eq_of_unlagged never, roll]

end Faithful

end Watch

/-- The name on the grant of a managed plugin is its own. -/
theorem Managed.Origin.grant_plugin {σ : Type} {p : Managed σ} {a : Attempt σ} {t : Trust}
    {who : Metadata} (o : p.Origin a t who) : p.grant.plugin = p.id :=
  (congrArg (fun q => q.grant.plugin) o.kept).trans o.id_eq.symm

/-- Whatever is done with a manager, its plugins and its bus: a receiver that was there before
the first action, has lost nothing and has nothing left to read can tell the ids, versions and
states of all plugins, in load order. And whatever a plugin does with its host, it publishes
nothing but events of plugins in its own name, and nothing at all without a grant. -/
theorem events_tell_roll {σ : Type} (m : Manager σ) (w : World σ) (used : w.bus.Used)
    (deeds : List (Deed σ)) (stays : .leave w.bus.subscribe.1 ∉ deeds) :
    let v := (Watch.new m w).run deeds
    ((∀ n, .lagged n ∉ v.told) → (v.bus.receive v.receiver).1 = .empty →
      Roll.noteAll [] (v.told.filterMap Received.event?) = v.session.manager.roll) ∧
    ∀ p ∈ v.session.manager.plugins, ∀ (α : Type) (t : Hook σ α) (w : World σ),
      (∃ events, (∀ e ∈ events, e.SaidBy p.id) ∧
        (t.run v.session.manager.host p.handle (some p.grant) w).2.2.bus =
          w.bus.publishAll events) ∧
      (t.run v.session.manager.host p.handle none w).2.2.bus = w.bus := by
  intro v
  obtain ⟨valid, start⟩ := Session.run_traced m (w.withBus w.bus.subscribe.2) []
  have traced : v.session.Traced m := Session.steps_induction
    (fun _ _ _ step traced => step.traced traced) valid
    (Watch.run_steps (v := Watch.new m w) valid deeds) start
  have faithful : v.Faithful := (Watch.Faithful.new m used).run valid stays
  refine ⟨faithful.roll_eq, fun p hp α t w => ⟨?_, t.run_unbound _ _ w⟩⟩
  obtain ⟨a, -, trust, who, origin⟩ := traced.origin p hp
  obtain ⟨events, own, speaks⟩ := t.run_speaks v.session.manager.host p.handle p.grant w
  rw [origin.grant_plugin] at own
  exact ⟨events, own, speaks.bus⟩

/-- Two parrots come and one of them goes again, while a receiver reads now and then. -/
theorem parrots_tell_roll :
    let w := Parrot.world 16
    let deeds : List (Deed Unit) :=
      [.act (.load "org.a.so"), .act (.load "org.b.so"), .read 0, .act (.load "org.b.so"), .join,
        .act .startAll, .act (.dispatch none "hello" ""), .act (.unload "org.a"), .leave 1] ++
      List.replicate 8 (.read 0)
    let v := (Watch.new { loader := Parrot.loader Parrot.polite } w).run deeds
    let said (id type : String) : Received Event := .event (.plugin id type "" w.now)
    v.told =
      [.event (.pluginLoaded "org.a" "1"), .event (.pluginLoaded "org.b" "1"), said "org.a" "hello",
        .event (.pluginInitialized "org.a"), said "org.b" "hello",
        .event (.pluginInitialized "org.b"), said "org.a" "bye", said "org.b" "bye",
        .event (.pluginUnloaded "org.a")] ∧
      v.session.manager.roll = [("org.b", "1", .initialized)] ∧
      Roll.noteAll [] (v.told.filterMap Received.event?) = v.session.manager.roll := by
  intro w deeds v said
  have used : w.bus.Used := ⟨16, { slots := 16 }, [], rfl, rfl⟩
  have stays : .leave w.bus.subscribe.1 ∉ deeds := by
    simp [deeds, w, Parrot.world, Bus.subscribe]
  have told : v.told =
      [.event (.pluginLoaded "org.a" "1"), .event (.pluginLoaded "org.b" "1"), said "org.a" "hello",
        .event (.pluginInitialized "org.a"), said "org.b" "hello",
        .event (.pluginInitialized "org.b"), said "org.a" "bye", said "org.b" "bye",
        .event (.pluginUnloaded "org.a")] := by
    decide +kernel
  have roll : v.session.manager.roll = [("org.b", "1", .initialized)] := by
    decide +kernel
  have never : ∀ n, .lagged n ∉ v.told := by
    simp [told, said]
  have caughtUp : (v.bus.receive v.receiver).1 = .empty := by
    decide +kernel
  exact ⟨told, roll, (events_tell_roll _ w used deeds stays).1 never caughtUp⟩

end PluginHost
