import PluginHost.Proofs.Core.Pump
import PluginHost.Proofs.Session.Roll

/-!
# Routing

From its start on, a core receives what is published and hands the events of plugins to the
other plugins, whenever it is pumped. In between, anything may be done with its manager and
with the bus, but for the receiver of the core, which is its own.

* `Course` is a core since its start, with all that was published, received and handed over.

Results:
1. `Core.start_tells`: nothing that is published during a start is lost.
2. `Course.Kept.move`: what every move keeps.
3. `routing_is_exact`: the same over all that can be done with a core.
-/

namespace PluginHost

-- Nothing here depends on how paths are taken apart, so reduction stops before it.
attribute [local irreducible] Gate.check Files.present

/-! ## Definitions -/

/-- What is done with a core that runs, or with its bus. -/
inductive Core.Move (σ : Type)
  | act (a : Action σ)
  | use (o : Bus.Operation Event)
  | pump (fuel : Nat)

/-- A core since its start.

* `log`: what was published since its receiver was there.
* `receipts`: what happened in the turns of all pumps.
* `handed`: the entries of the journal that say which plugin a pump handed what.
* `counted`: what the pumps have returned, in all. -/
structure Course (σ : Type) where
  core : Core σ
  world : World σ
  log : List Event := []
  receipts : List (Receipt σ) := []
  handed : List Entry := []
  counted : Nat := 0

/-- The loads, the starts and the end of a core's start. -/
def Core.enlist {σ : Type} (c : Core σ) (env : Environment) (w : World σ) :
    Unit × Manager σ × World σ :=
  let (_, m, w) := c.newManager.discover c.config.plugins.dir c.config.plugins.extension w
  let (_, m, w) := m.startAll w
  let (_, m, w) := m.unloadUnstarted w
  ((), m, (markFirst (c.config.directory env) w).2)

namespace Course

variable {σ : Type}

/-- A core that is started. -/
def start (c : Core σ) (env : Environment) (w : World σ) : Course σ :=
  { core := (c.start env w).2.1
    world := (c.start env w).2.2
    log := w.said fun w => (c.start env w).2.2 }

/-- Something is done with the manager. -/
def act (k : Course σ) (r : Running σ) (a : Action σ) : Course σ :=
  let s : Session σ := { manager := r.manager, world := k.world }
  { k with
    core := { k.core with running := some { r with manager := (s.perform a).manager } }
    world := (s.perform a).world
    log := k.log ++ s.said a }

/-- Somebody else uses the bus. -/
def use (k : Course σ) (o : Bus.Operation Event) : Course σ :=
  let after := ({ bus := k.world.bus } : Ledger Event).enter o
  { k with world := k.world.withBus after.bus, log := k.log ++ after.log }

/-- The core is pumped, if this comes to an end. -/
def pump (k : Course σ) (r : Running σ) (fuel : Nat) : Option (Course σ) :=
  match k.core.pump fuel k.world with
  | some (.ok n, core, w) =>
    let receipts := Core.receipts fuel r k.world
    some
      { core
        world := w
        log := k.log ++ receipts.flatMap (·.said)
        receipts := k.receipts ++ receipts
        handed := k.handed ++ (w.journal.drop k.world.journal.length).filter Entry.isEvent
        counted := k.counted + n }
  | _ => none

/-- The course after a move. There is none if a pump does not come to an end, or if somebody
else wants to use the receiver of the core. -/
def move (k : Course σ) (m : Core.Move σ) : Option (Course σ) :=
  k.core.running.bind fun r =>
    match m with
    | .act a => some (k.act r a)
    | .use o =>
      if o = .receive r.receiver ∨ o = .unsubscribe r.receiver then none else some (k.use o)
    | .pump fuel => k.pump r fuel

def run (k : Course σ) : List (Core.Move σ) → Option (Course σ)
  | [] => some k
  | m :: rest => (k.move m).bind fun k => k.run rest

/-- Whatever was published since the start of the core, it was routed exactly.

* `received`: each of the events up to some place was received in its place or counted among
  the lost ones there, which are the oldest that were waiting; the others are still owed.
* `inOrder`: what was received was published since the start, in this order, and nothing is
  received twice.
* `handed`: an event of a plugin was handed over while it was routed, to each plugin that was
  started at that moment and is not its source, in load order, and nothing else was.
* `counted`: the pumps have returned how many events of plugins were received. -/
structure Exact (k : Course σ) : Prop where
  received : ∃ r, k.core.running = some r ∧
    k.world.bus.Tells r.receiver (k.receipts.map (·.told)) k.log
  inOrder : (k.receipts.filterMap (·.told.event?)).Sublist k.log
  handed : k.handed = k.receipts.flatMap (·.deliveries)
  counted : k.counted = k.receipts.countP (·.isPlugin)

/-- What is kept while the core runs as `r`. -/
structure Kept (k : Course σ) (r : Running σ) : Prop where
  running : k.core.running = some r
  distinct : r.manager.Distinct
  tells : k.world.bus.Tells r.receiver (k.receipts.map (·.told)) k.log
  handed : k.handed = k.receipts.flatMap (·.deliveries)
  counted : k.counted = k.receipts.countP (·.isPlugin)

end Course

/-! ## The start -/

namespace Core

variable {σ : Type} (c : Core σ) (env : Environment) (w : World σ)

theorem markFirst_withBus (dir : String) (w : World σ) (bus : Bus Event) :
    (markFirst dir (w.withBus bus)).2 = (markFirst dir w).2.withBus bus := by
  unfold markFirst
  rw [World.withBus_files]
  split <;> rfl

/-- The plugins that a start leaves are told by what it publishes, and their ids differ. -/
theorem enlist_reports :
    Reports (c.enlist env) c.newManager w ∧ (c.enlist env w).2.1.Distinct := by
  have none : c.newManager.Distinct := List.nodup_nil
  have loaded := Manager.distinct_discover none c.config.plugins.dir c.config.plugins.extension w
  have started := Manager.distinct_startAll loaded
    (c.newManager.discover c.config.plugins.dir c.config.plugins.extension w).2.2
  refine ⟨?_, Manager.distinct_unloadUnstarted started w⟩
  have loads := c.newManager.discover_reports w c.config.plugins.dir c.config.plugins.extension
  have starts := loads.bind (g := fun _ m w => m.startAll w) (Manager.startAll_reports _ loaded)
  have ends := starts.bind (g := fun _ m w => m.unloadUnstarted w)
    (Manager.unloadUnstarted_reports _ started)
  refine ends.bind (g := fun _ m w => ((), m, (markFirst (c.config.directory env) w).2)) ?_
  exact .nothing (fun bus => by simp only [markFirst_withBus, Bus.publishAll_nil]) rfl

variable {c} {w}

/-- A start subscribes first, and all else comes after it. -/
theorem start_eq (stopped : c.running = none) (w : World σ) :
    let after := c.enlist env (w.withBus w.bus.subscribe.2)
    (c.start env w).2 = ({ c with running := some ⟨after.2.1, w.bus.subscribe.1⟩ }, after.2.2) := by
  unfold start
  rw [stopped]
  rfl

/-- The receiver of a core is owed all that is published during its start. -/
theorem start_tells (stopped : c.running = none) (used : w.bus.Used) :
    ∃ r, (c.start env w).2.1.running = some r ∧ r.manager.Distinct ∧
      (c.start env w).2.2.bus.Tells r.receiver [] (w.said fun w => (c.start env w).2.2) := by
  obtain ⟨⟨events, speaks, -⟩, distinct⟩ := c.enlist_reports env (w.withBus w.bus.subscribe.2)
  have published (bus : Bus Event) :
      (c.start env (w.withBus bus)).2.2.bus = bus.subscribe.2.publishAll events := by
    have after := congrArg (fun r => r.2.2.bus) (speaks bus.subscribe.2)
    rw [start_eq env stopped]
    exact after
  have said : (w.said fun w => (c.start env w).2.2) = events :=
    World.said_eq (fun b => b.subscribe.2) published fun b =>
      ⟨rfl, rfl, rfl, [⟨b.nextId, b.published⟩], rfl⟩
  rw [said, start_eq env stopped]
  refine ⟨_, rfl, distinct, ?_⟩
  have tells := (Bus.Tells.new (Ledger.sound_of_used used)).publishAll events
  rw [← published w.bus, World.withBus_self, start_eq env stopped, List.nil_append] at tells
  exact tells

end Core

/-! ## What every move keeps -/

namespace Course

variable {σ : Type} {k k' : Course σ} {r : Running σ}

theorem start_kept {c : Core σ} (env : Environment) {w : World σ} (stopped : c.running = none)
    (used : w.bus.Used) : ∃ r, (start c env w).Kept r := by
  obtain ⟨r, running, distinct, tells⟩ := Core.start_tells env stopped used
  exact ⟨r, running, distinct, tells, rfl, rfl⟩

namespace Kept

theorem act (kept : k.Kept r) (a : Action σ) :
    (k.act r a).Kept { r with
      manager := (Session.perform { manager := r.manager, world := k.world } a).manager } := by
  obtain ⟨running, distinct, tells, handed, counted⟩ := kept
  let s : Session σ := { manager := r.manager, world := k.world }
  obtain ⟨events, speaks, -⟩ := Session.perform_reports (s := s) distinct a
  have said : s.said a = events := speaks.said
  have bus : (s.perform a).world.bus = k.world.bus.publishAll events := speaks.bus
  refine ⟨rfl, Session.distinct_perform (s := s) distinct a, ?_, handed, counted⟩
  show (s.perform a).world.bus.Tells r.receiver _ (k.log ++ s.said a)
  rw [said, bus]
  exact tells.publishAll events

theorem use (kept : k.Kept r) {o : Bus.Operation Event}
    (others : ¬ (o = .receive r.receiver ∨ o = .unsubscribe r.receiver)) : (k.use o).Kept r := by
  obtain ⟨running, distinct, tells, handed, counted⟩ := kept
  refine ⟨running, distinct, ?_, handed, counted⟩
  cases o with
  | subscribe =>
    rw [← List.append_nil k.log] at tells
    exact tells.of_subscribe
  | publish e => exact tells.publishAll [e]
  | receive id =>
    have ne : id ≠ r.receiver := fun same => others (.inl (by rw [same]))
    rw [← List.append_nil k.log] at tells
    exact tells.of_receive ne
  | unsubscribe id =>
    have ne : id ≠ r.receiver := fun same => others (.inr (by rw [same]))
    rw [← List.append_nil k.log] at tells
    exact tells.of_unsubscribe ne

/-- A pump hands over what is due, and when it returns nothing is waiting. -/
theorem pump (kept : k.Kept r) {fuel : Nat} (pumped : k.pump r fuel = some k') :
    ∃ r', k'.Kept r' ∧ (k'.world.bus.receive r'.receiver).1 = .empty ∧
      k.world.journal <+: k'.world.journal := by
  obtain ⟨running, distinct, tells, handed, counted⟩ := kept
  unfold Course.pump Core.pump at pumped
  rw [running] at pumped
  cases returned : Core.pumpFrom fuel r k.world with
  | none => simp [returned] at pumped
  | some after =>
    obtain ⟨n, r', w'⟩ := after
    have all := Core.pumpFrom_pumped returned
    simp only [returned, Option.map_some, Option.some.injEq] at pumped
    subst pumped
    have tells' := all.tells _ _ tells
    rw [← all.receiver, ← List.map_append] at tells'
    obtain ⟨δ, journal, deliveries⟩ := all.handed
    refine ⟨r', ⟨rfl, ?_, tells', ?_, ?_⟩, Core.empty_of_turn? tells' all.caughtUp, δ, journal.symm⟩
    · have same := congrArg (List.map Managed.id) all.same
      rw [List.map_map, List.map_map] at same
      exact (congrArg List.Nodup same).mpr distinct
    · simp only [journal, List.drop_left, deliveries, handed, List.flatMap_append]
    · simp only [counted, all.counted, List.countP_append]

/-- Every move keeps what is kept while the core runs. -/
theorem move (kept : k.Kept r) {m : Core.Move σ} (moved : k.move m = some k') :
    ∃ r', k'.Kept r' := by
  rw [Course.move, kept.running, Option.bind_some] at moved
  cases m with
  | act a =>
    obtain rfl := Option.some.inj moved
    exact ⟨_, kept.act a⟩
  | use o =>
    simp only [Option.ite_none_left_eq_some, Option.some.injEq] at moved
    obtain ⟨others, rfl⟩ := moved
    exact ⟨r, kept.use others⟩
  | pump fuel =>
    obtain ⟨r', kept', -⟩ := kept.pump moved
    exact ⟨r', kept'⟩

theorem run (kept : k.Kept r) {moves : List (Core.Move σ)} (came : k.run moves = some k') :
    ∃ r', k'.Kept r' := by
  induction moves generalizing k r with
  | nil =>
    obtain rfl := Option.some.inj came
    exact ⟨r, kept⟩
  | cons m rest ih =>
    obtain ⟨k₁, moved, came⟩ := Option.bind_eq_some_iff.mp came
    obtain ⟨r₁, kept₁⟩ := kept.move moved
    exact ih kept₁ came

theorem exact (kept : k.Kept r) : k.Exact := by
  obtain ⟨heard, rest, log, covers, -⟩ := kept.tells
  refine ⟨⟨r, kept.running, kept.tells⟩, ?_, kept.handed, kept.counted⟩
  have heard := covers.sublist
  rw [List.filterMap_map] at heard
  rw [log]
  exact heard.trans (List.sublist_append_left _ _)

end Kept

end Course

/-- Whatever is done with a core since its start: it has routed exactly what was published
since, and a pump that returns adds to the journal alone and leaves nothing waiting. -/
theorem routing_is_exact {σ : Type} (c : Core σ) (env : Environment) (w : World σ)
    (stopped : c.running = none) (used : w.bus.Used) (moves : List (Core.Move σ)) (k : Course σ)
    (came : (Course.start c env w).run moves = some k) :
    k.Exact ∧ ∀ fuel k', k.move (.pump fuel) = some k' →
      k.world.journal <+: k'.world.journal ∧
        Received.Cover (k'.receipts.map (·.told)) k'.log := by
  obtain ⟨r₀, started⟩ := Course.start_kept env stopped used
  obtain ⟨r, kept⟩ := started.run came
  refine ⟨kept.exact, fun fuel k' moved => ?_⟩
  rw [Course.move, kept.running, Option.bind_some] at moved
  obtain ⟨r', kept', caughtUp, journal⟩ := kept.pump moved
  exact ⟨journal, kept'.tells.cover caughtUp⟩

/-- On a bus for four events the first two of a start are lost. Two parrots hear each other's
greetings and the answers to them; then somebody else greets them both. -/
theorem parrots_are_routed :
    let w := Parrot.world 4
    let moves : List (Core.Move Unit) :=
      [.pump 20, .use (.publish (.plugin "org.c" "hello" "" w.now)), .pump 20]
    let a : Handle := ⟨0, "plugins/org.a.so"⟩
    let b : Handle := ⟨1, "plugins/org.b.so"⟩
    let said (id type : String) : Received Event := .event (.plugin id type "" w.now)
    ∃ k, (Course.start (Parrot.core 4 Parrot.polite) {} w).run moves = some k ∧
      k.receipts.map (·.told) =
        [.lagged 2, said "org.a" "hello", .event (.pluginInitialized "org.a"),
          said "org.b" "hello", .event (.pluginInitialized "org.b"), said "org.b" "bye",
          said "org.a" "bye", said "org.c" "hello", said "org.a" "bye", said "org.b" "bye"] ∧
      k.handed =
        [.event b "hello" "", .event a "hello" "", .event a "bye" "", .event b "bye" "",
          .event a "hello" "", .event b "hello" "", .event b "bye" "", .event a "bye" ""] ∧
      k.counted = 7 ∧ k.Exact := by
  intro w moves a b said
  have used : w.bus.Used := ⟨4, { slots := 4 }, [], rfl, rfl⟩
  have came : ((Course.start (Parrot.core 4 Parrot.polite) {} w).run moves).map
      (fun k => (k.receipts.map (·.told), k.handed, k.counted)) =
        some
          ([.lagged 2, said "org.a" "hello", .event (.pluginInitialized "org.a"),
              said "org.b" "hello", .event (.pluginInitialized "org.b"), said "org.b" "bye",
              said "org.a" "bye", said "org.c" "hello", said "org.a" "bye", said "org.b" "bye"],
            [.event b "hello" "", .event a "hello" "", .event a "bye" "", .event b "bye" "",
              .event a "hello" "", .event b "hello" "", .event b "bye" "", .event a "bye" ""],
            7) := by
    decide +kernel
  obtain ⟨k, came, eq⟩ := Option.map_eq_some_iff.mp came
  obtain ⟨told, handed, counted⟩ : _ ∧ _ ∧ _ := by simpa only [Prod.mk.injEq] using eq
  exact ⟨k, came, told, handed, counted, (routing_is_exact _ {} w rfl used moves k came).1⟩

end PluginHost
