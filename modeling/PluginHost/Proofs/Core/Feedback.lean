import Mathlib.Logic.Hydra
import PluginHost.Proofs.Core.Routing
import PluginHost.Proofs.Session.Origin

/-!
# Feedback

While a pump routes an event, plugins may publish more, and it does not return before it has
routed that as well. It depends on the plugins whether it ever does: where no chain of replies
goes on forever, it returns, and where two plugins keep replying to each other, it does not.

Results:
1. `Core.Turned.descends`: in a turn what is waiting gives way to what comes before it.
2. `Core.pumpFrom_returns_of_alone`: a plugin that is alone does not keep a pump from
   returning, as it never hears itself.
3. `pump_returns`: a pump returns if the replies of plugins come before what they reply to.
4. `parrots_never_fall_silent`: a pump that does not return.
-/

namespace PluginHost

-- Nothing here depends on how paths are taken apart, so reduction stops before it.
attribute [local irreducible] Gate.check Files.present

/-! ## Definitions -/

/-- Whatever the plugin says to an event of another, if it is started, comes before that
event. -/
def Managed.Calm {σ : Type} (p : Managed σ) (host : Host) (lt : Event → Event → Prop) : Prop :=
  p.state = .initialized → ∀ source type payload time said, source ≠ p.id →
    p.Replies host type payload said → ∀ a ∈ said, lt a (.plugin source type payload time)

/-- All plugins are calm. -/
def Manager.Calm {σ : Type} (m : Manager σ) (lt : Event → Event → Prop) : Prop :=
  ∀ p ∈ m.plugins, p.Calm m.host lt

/-- Some of the events have given way, each to events that come before it. -/
def Event.Descends (lt : Event → Event → Prop) (later earlier : List Event) : Prop :=
  Relation.TransGen (Relation.CutExpand lt) (later : Multiset Event) (earlier : Multiset Event)

/-! ## Calm plugins -/

section calm

variable {σ : Type} {lt : Event → Event → Prop} {r r' : Running σ} {w w' : World σ}
  {receipt : Receipt σ} {e : Event} {events rest : List Event}

/-- What a plugin has been granted makes no difference to whether it is calm. -/
theorem Manager.Calm.of_same {m m' : Manager σ} (calm : m.Calm lt) (host : m'.host = m.host)
    (same : m'.plugins.map Managed.ungranted = m.plugins.map Managed.ungranted) :
    m'.Calm lt := by
  intro p hp
  have there := List.mem_map_of_mem (f := Managed.ungranted) hp
  rw [same] at there
  obtain ⟨q, hq, eq⟩ := List.mem_map.mp there
  have still : q.ungranted.Calm m.host lt := calm q hq
  rw [eq] at still
  rw [host]
  exact still

/-- What calm plugins say to an event comes before it. -/
theorem Manager.Calm.replied {m : Manager σ} (calm : m.Calm lt)
    (replied : Core.Replied m e events) : ∀ a ∈ events, lt a e := by
  intro a ha
  cases e with
  | plugin source type payload time =>
    obtain ⟨p, hp, said, replies, ha⟩ := Managed.InTurn.exists_of_mem replied ha
    obtain ⟨hp, receives⟩ := List.mem_filter.mp hp
    obtain ⟨started, other⟩ := Manager.receives_iff.mp receives
    exact calm p hp started source type payload time said (fun h => other (by rw [h])) replies a ha
  | pluginLoaded | pluginInitialized | pluginUnloaded | pluginError | shutdown =>
    rw [show events = [] from replied] at ha
    cases ha

namespace Event.Descends

/-- Descending comes to an end. -/
theorem wf (lt_wf : WellFounded lt) : WellFounded (Descends lt) :=
  InvImage.wf (fun events : List Event => (events : Multiset Event)) lt_wf.cutExpand.transGen

/-- The first event gives way. -/
theorem head (before : ∀ a ∈ events, lt a e) : Descends lt (rest ++ events) (e :: rest) := by
  refine .single ⟨events, e, before, ?_⟩
  rw [← Multiset.coe_singleton, Multiset.coe_add, Multiset.coe_add, Multiset.coe_eq_coe]
  exact List.perm_append_comm

/-- Some of the first events give way to nothing. -/
theorem drop {n : Nat} (some : 0 < n) (within : n ≤ rest.length) :
    Descends lt (rest.drop n) rest := by
  induction rest generalizing n with
  | nil =>
    rw [List.length_nil] at within
    omega
  | cons e rest ih =>
    have none : ∀ a ∈ ([] : List Event), lt a e := by simp
    have first : Descends lt rest (e :: rest) := by simpa using head none
    cases n with
    | zero => omega
    | succ n =>
      rw [List.length_cons] at within
      rcases Nat.eq_zero_or_pos n with rfl | more
      · exact first
      · exact .trans (ih more (by omega)) first

end Event.Descends

namespace Core

/-- There is a turn as long as an event is waiting. -/
theorem exists_turn (owes : w.bus.Owes r.receiver (e :: rest)) :
    ∃ receipt r' w', turn? r w = some (receipt, r', w') := by
  cases turn : turn? r w with
  | none =>
    have empty := empty_of_turn? ⟨[], e :: rest, rfl, .nil, owes⟩ turn
    have pos := Received.weight_due_pos w.bus.slots (List.cons_ne_nil e rest)
    rw [← owes.receive.1, empty] at pos
    exact absurd pos (Nat.lt_irrefl 0)
  | some next => exact ⟨_, _, _, rfl⟩

/-- In a turn, an event gives way to the replies of calm plugins, or the oldest events are
lost. -/
theorem Turned.descends (turned : Turned r w receipt r' w') (calm : r.manager.Calm lt)
    (owes : w.bus.Owes r.receiver (e :: rest)) :
    ∃ later, w'.bus.Owes r'.receiver later ∧ Event.Descends lt later (e :: rest) := by
  obtain ⟨due, left⟩ := turned.owes _ owes
  have replied := turned.replied
  rw [turned.receiver]
  refine ⟨_, left, ?_⟩
  rw [due] at replied ⊢
  rw [Received.due] at replied ⊢
  split at replied
  · next lost =>
    rw [if_pos lost, show receipt.said = [] from replied, List.append_nil]
    refine .drop (Nat.sub_pos_of_lt lost) ?_
    rw [Received.weight, List.length_cons]
    omega
  · next kept =>
    rw [if_neg kept]
    exact .head (calm.replied replied)

/-- A pump returns where all plugins are calm. -/
theorem pumpFrom_returns (wf : WellFounded lt) (owes : w.bus.Owes r.receiver rest)
    (calm : r.manager.Calm lt) : ∃ fuel after, pumpFrom fuel r w = some after := by
  induction rest using (Event.Descends.wf wf).induction generalizing r w with
  | _ rest ih =>
    cases rest with
    | nil =>
      have none : turn? r w = none := by
        rw [turn?, owes.empty]
      exact ⟨1, _, pumpFrom_of_none none 0⟩
    | cons e rest =>
      obtain ⟨receipt, r', w', turn⟩ := exists_turn owes
      have turned := turn?_turned turn
      obtain ⟨later, owes', descends⟩ := turned.descends calm owes
      obtain ⟨fuel, ⟨n, r₁, w₁⟩, returned⟩ :=
        ih later descends owes' (calm.of_same turned.host turned.same)
      refine ⟨fuel + 1, (n + (if receipt.isPlugin then 1 else 0), r₁, w₁), ?_⟩
      rw [pumpFrom_of_turn turn, returned]
      rfl

/-- To what a plugin says that is alone nobody replies. -/
theorem calm_of_alone {m : Manager σ} {name : String}
    (alone : ∀ p ∈ m.plugins, p.state = .initialized → p.id = name ∧ p.grant.plugin = name) :
    m.Calm (fun a e => a.SaidBy name ∧ ¬ e.SaidBy name) := by
  intro p hp started source type payload time said other replies a ha
  obtain ⟨id, plugin⟩ := alone p hp started
  obtain ⟨g, holder, w, rfl⟩ := replies
  obtain ⟨events, own, speaks⟩ := p.interface.runEvent_speaks m.host p.handle g w type payload
  rw [speaks.said] at ha
  rw [holder, plugin] at own
  refine ⟨own a ha, fun itself => other ?_⟩
  obtain ⟨_, _, _, eq⟩ := itself
  rw [id]
  injection eq

/-- A pump returns where only one plugin is started. -/
theorem pumpFrom_returns_of_alone {name : String} (owes : w.bus.Owes r.receiver rest)
    (alone : ∀ p ∈ r.manager.plugins, p.state = .initialized →
      p.id = name ∧ p.grant.plugin = name) :
    ∃ fuel after, pumpFrom fuel r w = some after := by
  -- A reply of the one plugin is never replied to, so no descent has a second step.
  have wf : WellFounded fun a e : Event => a.SaidBy name ∧ ¬ e.SaidBy name :=
    ⟨fun _ => .intro _ fun _ after => .intro _ fun _ later => absurd after.1 later.2⟩
  exact pumpFrom_returns wf owes (calm_of_alone alone)

/-- A pump does not return where there is always another turn. -/
theorem pumpFrom_eq_none {P : Running σ → World σ → Prop}
    (goes : ∀ r w, P r w → ∃ receipt r' w', turn? r w = some (receipt, r', w') ∧ P r' w')
    (fuel : Nat) (start : P r w) : pumpFrom fuel r w = none := by
  induction fuel generalizing r w with
  | zero => rfl
  | succ fuel ih =>
    obtain ⟨receipt, r', w', turn, next⟩ := goes r w start
    rw [pumpFrom_of_turn turn, ih next]
    rfl

end Core

end calm

/-! ## Parrots -/

/-- The plugins of a core that has just been started, before any module was ever opened, are
those of a session. -/
theorem Core.start_session {σ : Type} {c : Core σ} (env : Environment) {w : World σ}
    (stopped : c.running = none) (journal : w.journal = []) :
    ∃ r, (c.start env w).2.1.running = some r ∧ r.manager =
      ((Session.new c.newManager (w.withBus w.bus.subscribe.2)).run
        [.discover c.config.plugins.dir c.config.plugins.extension, .startAll,
          .unloadUnstarted]).manager := by
  refine ⟨_, congrArg (fun r => r.1.running) (start_eq env stopped w), ?_⟩
  have same : ({ w.withBus w.bus.subscribe.2 with journal := [] } : World σ) =
      w.withBus w.bus.subscribe.2 := by
    rw [← journal]
    rfl
  rw [Session.new, same]
  rfl

namespace Parrot

variable {answer : Terminated → Terminated}

/-- The plugin behaves like a parrot when it hears an event. -/
def IsParrot (answer : Terminated → Terminated) (p : Managed Unit) : Prop :=
  p.interface.event = fun type _ => hear answer type

/-- Every module that is opened holds a parrot. -/
theorem event_of_reported {a : Attempt Unit} {i : Interface Unit} {who : Metadata}
    (loads : a.manager.loader = loader answer) (reported : a.reported? = some (i, who)) :
    i.event = fun type _ => hear answer type := by
  unfold Attempt.reported? at reported
  rw [loads] at reported
  simp only [loader, Manager.identify] at reported
  have interface : (table ((Path.stem? a.path).getD "") answer).toInterface =
      .ok ⟨_, _, _, _, _, _, fun type _ => hear answer type⟩ := rfl
  rw [interface] at reported
  dsimp only at reported
  split at reported
  · cases reported
  · have same := Option.some.inj reported
    rw [← (Prod.mk.inj same).1]

/-- A core that has just been started has nothing but parrots. -/
theorem start_isParrot (answer : Terminated → Terminated) (slots : Nat) :
    ∃ r, (Course.start (core slots answer) {} (world slots)).core.running = some r ∧
      ∀ p ∈ r.manager.plugins, IsParrot answer p := by
  obtain ⟨r, running, manager⟩ :=
    Core.start_session {} (c := core slots answer) (w := world slots) rfl rfl
  refine ⟨r, running, fun p hp => ?_⟩
  rw [manager] at hp
  obtain ⟨-, traced⟩ := Session.run_traced (core slots answer).newManager _ _
  obtain ⟨a, ha, t, who, origin⟩ := traced.origin p hp
  have loads : a.manager.loader = loader answer :=
    congrArg Manager.loader (traced.setUpThen a ha)
  exact event_of_reported loads origin.reported

/-- What a parrot replies. -/
theorem replies_eq {p : Managed Unit} (parrot : IsParrot answer p) {host : Host}
    {type payload : String} {said : List Event} (replies : p.Replies host type payload said) :
    ∃ time, said = if Terminated.hasNul type ∨ Terminated.hasNul payload then [] else
      (Terminated.lossy (answer (Terminated.ofText? type))).toList.map fun t =>
        .plugin p.grant.plugin t "" time := by
  obtain ⟨g, plugin, w, rfl⟩ := replies
  refine ⟨w.now, ?_⟩
  rw [← plugin]
  refine Speaks.said
    (f := fun w => ((), p.interface.runEvent host p.handle type payload (some g) w)) fun bus => ?_
  by_cases nul : Terminated.hasNul type ∨ Terminated.hasNul payload
  · simp only [p.interface.runEvent_of_nul host p.handle _ nul, if_pos nul]
    rfl
  · have text : Terminated.ofText? type = some (Utf8.bytesOf type) := if_neg (not_or.mp nul).1
    simp only [p.interface.runEvent_of_text host p.handle _ nul, if_neg nul, text,
      show p.interface.event = _ from parrot, hear, Hook.run, Host.answer, Option.elim, World.emit]
    cases Terminated.lossy (answer (some (Utf8.bytesOf type))) <;> rfl

/-- How many replies follow on an event where parrots are polite. -/
def rank : Event → Nat
  | .plugin _ type _ _ => if polite (Terminated.ofText? type) = none then 0 else 1
  | _ => 0

theorem rank_bye (source payload : String) (time : Instant) :
    rank (.plugin source "bye" payload time) = 0 := by
  have none : polite (Terminated.ofText? "bye") = none := by decide +kernel
  rw [rank, if_pos none]

theorem calm_of_polite {p : Managed Unit} (parrot : IsParrot polite p) (host : Host) :
    p.Calm host (InvImage (· < ·) rank) := by
  intro _ source type payload time said _ replies a ha
  obtain ⟨now, rfl⟩ := replies_eq parrot replies
  split at ha
  · cases ha
  · have bye : Terminated.lossy (some (Utf8.bytesOf "bye")) = some "bye" := by decide +kernel
    cases heard : polite (Terminated.ofText? type) with
    | none => simp [heard, Terminated.lossy] at ha
    | some answer =>
      have same : answer = Utf8.bytesOf "bye" := by
        unfold polite at heard
        split at heard <;> simp_all
      rw [heard, same, bye] at ha
      obtain rfl := List.mem_singleton.mp ha
      show rank _ < rank _
      rw [rank_bye, rank, heard, if_neg (Option.some_ne_none _)]
      exact Nat.one_pos

end Parrot

/-- Whatever has been done with a core since its start, and whatever is waiting for it: it can
be pumped to the end, if the events that started plugins say to those of others come before
these in an order without endless descents. -/
theorem pump_returns {σ : Type} (c : Core σ) (env : Environment) (w : World σ)
    (stopped : c.running = none) (used : w.bus.Used) (moves : List (Core.Move σ)) (k : Course σ)
    (came : (Course.start c env w).run moves = some k) (r : Running σ)
    (running : k.core.running = some r) (lt : Event → Event → Prop) (wf : WellFounded lt)
    (calm : r.manager.Calm lt) :
    ∃ fuel n core w', k.core.pump fuel k.world = some (.ok n, core, w') := by
  obtain ⟨r₀, started⟩ := Course.start_kept env stopped used
  obtain ⟨r', kept⟩ := started.run came
  obtain rfl : r' = r := Option.some.inj (kept.running.symm.trans running)
  obtain ⟨-, rest, -, -, owes⟩ := kept.tells
  obtain ⟨fuel, ⟨n, r₁, w₁⟩, returned⟩ := Core.pumpFrom_returns wf owes calm
  refine ⟨fuel, n, { k.core with running := some r₁ }, w₁, ?_⟩
  simp only [Core.pump, running, returned, Option.map_some]

/-- Two polite parrots come to an end. -/
theorem polite_parrots_end :
    let k := Course.start (Parrot.core 4 Parrot.polite) {} (Parrot.world 4)
    k.core.isRunning = true ∧
      ∃ fuel n core w', k.core.pump fuel k.world = some (.ok n, core, w') := by
  intro k
  have used : (Parrot.world 4).bus.Used := ⟨4, { slots := 4 }, [], rfl, rfl⟩
  obtain ⟨r, running, parrots⟩ := Parrot.start_isParrot Parrot.polite 4
  have calm : r.manager.Calm (InvImage (· < ·) Parrot.rank) :=
    fun p hp => Parrot.calm_of_polite (parrots p hp) _
  refine ⟨by rw [Core.isRunning, running]; rfl, ?_⟩
  exact pump_returns (Parrot.core 4 Parrot.polite) {} (Parrot.world 4) rfl used [] k rfl r running _
    (InvImage.wf _ Nat.lt_wfRel.wf) calm

/-! ## Parrots that never fall silent -/

namespace Parrot

/-- The greeting of one of two parrots. -/
def IsGreeting (e : Event) : Prop :=
  ∃ id, (id = "org.a" ∨ id = "org.b") ∧ ∃ time, e = .plugin id "hello" "" time

/-- A parrot that is started and repeats what it hears. -/
structure IsEcho (name : String) (p : Managed Unit) : Prop where
  id : p.id = name
  started : p.state = .initialized
  plugin : p.grant.plugin = name
  parrot : IsParrot (fun type => type) p

/-- The events that are waiting are no more than are kept, those of plugins are greetings, and
there is one among them. -/
structure Chatter (slots : Nat) (rest : List Event) : Prop where
  room : rest.length ≤ slots
  greetings : ∀ e ∈ rest, e.kind = .plugin → IsGreeting e
  some : ∃ e ∈ rest, IsGreeting e

/-- There are two parrots, and no other plugins. -/
def IsPair (ps : List (Managed Unit)) : Prop :=
  ∃ a b, ps = [a, b] ∧ IsEcho "org.a" a ∧ IsEcho "org.b" b

/-- Two parrots repeat each other's greetings. -/
structure Babble (r : Running Unit) (w : World Unit) : Prop where
  plugins : IsPair r.manager.plugins
  waiting : ∃ rest, w.bus.Owes r.receiver rest ∧ Chatter w.bus.slots rest

/-- A parrot stays one, whatever it is granted. -/
theorem IsEcho.of_ungranted {name : String} {p q : Managed Unit}
    (same : p.ungranted = q.ungranted) (echo : IsEcho name q) : IsEcho name p := by
  have bare : IsEcho name q.ungranted := ⟨echo.id, echo.started, echo.plugin, echo.parrot⟩
  rw [← same] at bare
  exact ⟨bare.id, bare.started, bare.plugin, bare.parrot⟩

theorem IsPair.of_same {ps qs : List (Managed Unit)} (pair : IsPair qs)
    (same : ps.map Managed.ungranted = qs.map Managed.ungranted) : IsPair ps := by
  obtain ⟨a, b, rfl, echoA, echoB⟩ := pair
  have two := congrArg List.length same
  rw [List.length_map, List.length_map] at two
  obtain ⟨a', b', rfl⟩ := List.length_eq_two.mp two
  obtain ⟨sameA, sameB⟩ : a'.ungranted = a.ungranted ∧ b'.ungranted = b.ungranted := by
    simpa using same
  exact ⟨a', b', rfl, echoA.of_ungranted sameA, echoB.of_ungranted sameB⟩

/-- A greeting that is received makes room for the reply. -/
theorem Chatter.replied {slots : Nat} {e a : Event} {rest : List Event}
    (chatter : Chatter slots (e :: rest)) (greets : IsGreeting a) :
    Chatter slots (rest ++ [a]) := by
  constructor
  case room =>
    rw [List.length_append, List.length_singleton]
    exact chatter.room
  case greetings =>
    intro b hb plugin
    rcases List.mem_append.mp hb with hb | hb
    · exact chatter.greetings b (List.mem_cons_of_mem _ hb) plugin
    · exact (List.mem_singleton.mp hb) ▸ greets
  case some => exact ⟨a, by simp, greets⟩

/-- The greetings are still to come if what is received is none. -/
theorem Chatter.passed {slots : Nat} {e : Event} {rest : List Event}
    (chatter : Chatter slots (e :: rest)) (other : e.kind ≠ .plugin) : Chatter slots rest := by
  obtain ⟨room, greetings, some, there, greets⟩ := chatter
  refine ⟨Nat.le_of_succ_le room, fun b hb => greetings b (List.mem_cons_of_mem _ hb), some, ?_,
    greets⟩
  rcases List.mem_cons.mp there with rfl | there
  · obtain ⟨id, -, time, rfl⟩ := greets
    exact absurd rfl other
  · exact there

/-- What an echo replies to a greeting. -/
theorem IsEcho.replies {name : String} {p : Managed Unit} (echo : IsEcho name p) {host : Host}
    {said : List Event} (replies : p.Replies host "hello" "" said) :
    ∃ time, said = [.plugin name "hello" "" time] := by
  obtain ⟨time, rfl⟩ := replies_eq echo.parrot replies
  have text : ¬ (Terminated.hasNul "hello" = true ∨ Terminated.hasNul "" = true) := by
    decide +kernel
  have same : Terminated.lossy (Terminated.ofText? "hello") = some "hello" := by decide +kernel
  exact ⟨time, by rw [if_neg text, same, echo.plugin]; rfl⟩

/-- To a greeting one of two echoes replies, and to what is no event of a plugin none. -/
theorem said_of_babble {r : Running Unit} {w : World Unit} (babble : Babble r w) {e : Event}
    (greeting : e.kind = .plugin → IsGreeting e) {said : List Event}
    (replied : Core.Replied r.manager e said) :
    (e.kind ≠ .plugin ∧ said = []) ∨ ∃ a, said = [a] ∧ IsGreeting a := by
  obtain ⟨a, b, here, echoA, echoB⟩ := babble.plugins
  cases e with
  | plugin source type payload time =>
    obtain ⟨id, which, now, eq⟩ := greeting rfl
    obtain ⟨rfl, rfl, rfl, rfl⟩ : source = id ∧ type = "hello" ∧ payload = "" ∧ time = now := by
      simpa using eq
    right
    have one {p : Managed Unit} {name : String} (echo : IsEcho name p)
        (there : r.manager.plugins.filter (Manager.receives (some source)) = [p]) :
        ∃ time, said = [.plugin name "hello" "" time] := by
      rw [Core.Replied, there] at replied
      cases replied with
      | cons replies none =>
        cases none
        obtain ⟨time, rfl⟩ := echo.replies replies
        exact ⟨time, rfl⟩
    rcases which with rfl | rfl
    · obtain ⟨time, rfl⟩ := one echoB (by
        simp [here, Manager.receives, echoA.id, echoB.id, echoA.started, echoB.started])
      exact ⟨_, rfl, "org.b", .inr rfl, time, rfl⟩
    · obtain ⟨time, rfl⟩ := one echoA (by
        simp [here, Manager.receives, echoA.id, echoB.id, echoA.started, echoB.started])
      exact ⟨_, rfl, "org.a", .inl rfl, time, rfl⟩
  | pluginLoaded | pluginInitialized | pluginUnloaded | pluginError | shutdown =>
    exact .inl ⟨by simp [Event.kind], replied⟩

/-- There is always another turn, and the parrots go on after it. -/
theorem Babble.goes_on (r : Running Unit) (w : World Unit) (babble : Babble r w) :
    ∃ receipt r' w', Core.turn? r w = some (receipt, r', w') ∧ Babble r' w' := by
  obtain ⟨rest, owes, chatter⟩ := babble.waiting
  obtain ⟨greeting, there, -⟩ := chatter.some
  obtain ⟨e, rest, rfl⟩ := List.exists_cons_of_ne_nil (List.ne_nil_of_mem there)
  obtain ⟨receipt, r', w', turn⟩ := Core.exists_turn owes
  have turned := Core.turn?_turned turn
  obtain ⟨due, left⟩ := turned.owes _ owes
  have replied := turned.replied
  -- As there is room for all that is waiting, nothing is lost in the turn.
  have kept : ¬ w.bus.slots < rest.length + 1 := Nat.not_lt.mpr chatter.room
  rw [Received.due, if_neg kept] at due
  rw [due] at left replied
  refine ⟨receipt, r', w', turn, babble.plugins.of_same turned.same, rest ++ receipt.said,
    turned.receiver ▸ left, ?_⟩
  rw [turned.slots]
  rcases said_of_babble babble (chatter.greetings e List.mem_cons_self) replied with
    ⟨other, none⟩ | ⟨a, one, greets⟩
  · rw [none, List.append_nil]
    exact chatter.passed other
  · rw [one]
    exact chatter.replied greets

/-- Two parrots are a pair once they are started under their own names. -/
theorem isPair_of_started {ps : List (Managed Unit)}
    (parrots : ∀ p ∈ ps, IsParrot (fun type => type) p)
    (started : ps.map (fun p => (p.id, p.state, p.grant.plugin)) =
      [("org.a", .initialized, "org.a"), ("org.b", .initialized, "org.b")]) : IsPair ps := by
  obtain ⟨a, b, rfl⟩ : ∃ a b, ps = [a, b] := by
    have two := congrArg List.length started
    rw [List.length_map] at two
    exact List.length_eq_two.mp two
  obtain ⟨⟨idA, startedA, pluginA⟩, idB, startedB, pluginB⟩ :
      (a.id = "org.a" ∧ a.state = .initialized ∧ a.grant.plugin = "org.a") ∧
        b.id = "org.b" ∧ b.state = .initialized ∧ b.grant.plugin = "org.b" := by
    simpa using started
  exact ⟨a, b, rfl, ⟨idA, startedA, pluginA, parrots a (by simp)⟩,
    ⟨idB, startedB, pluginB, parrots b (by simp)⟩⟩

/-- Greetings are heard among what is published while two parrots are loaded and started. -/
theorem chatter_of_greetings (now : Instant) :
    Chatter 16
      [.pluginLoaded "org.a" "1", .pluginLoaded "org.b" "1", .plugin "org.a" "hello" "" now,
        .pluginInitialized "org.a", .plugin "org.b" "hello" "" now,
        .pluginInitialized "org.b"] := by
  have greetsA : IsGreeting (.plugin "org.a" "hello" "" now) := ⟨"org.a", .inl rfl, now, rfl⟩
  have greetsB : IsGreeting (.plugin "org.b" "hello" "" now) := ⟨"org.b", .inr rfl, now, rfl⟩
  constructor
  case room => simp
  case greetings =>
    intro e he plugin
    simp only [List.mem_cons, List.not_mem_nil, or_false] at he
    rcases he with rfl | rfl | rfl | rfl | rfl | rfl
    case inr.inr.inl => exact greetsA
    case inr.inr.inr.inr.inl => exact greetsB
    all_goals cases plugin
  case some => exact ⟨_, by simp, greetsA⟩

/-- Two parrots greet each other as soon as they are started. -/
theorem babble_of_start :
    ∃ r, (Course.start (core 16 fun type => type) {} (world 16)).core.running = some r ∧
      Babble r (Course.start (core 16 fun type => type) {} (world 16)).world := by
  let k := Course.start (core 16 fun type => type) {} (world 16)
  have used : (world 16).bus.Used := ⟨16, { slots := 16 }, [], rfl, rfl⟩
  obtain ⟨r, running, parrots⟩ := start_isParrot (fun type => type) 16
  obtain ⟨r', kept⟩ := Course.start_kept (c := core 16 fun type => type) {} rfl used
  obtain rfl : r' = r := Option.some.inj (kept.running.symm.trans running)
  have started : k.core.running.map
      (fun r => r.manager.plugins.map fun p => (p.id, p.state, p.grant.plugin)) =
        some [("org.a", .initialized, "org.a"), ("org.b", .initialized, "org.b")] := by
    decide +kernel
  have log : k.log =
      [.pluginLoaded "org.a" "1", .pluginLoaded "org.b" "1",
        .plugin "org.a" "hello" "" (world 16).now, .pluginInitialized "org.a",
        .plugin "org.b" "hello" "" (world 16).now, .pluginInitialized "org.b"] := by
    decide +kernel
  have slots : k.world.bus.slots = 16 := by
    decide +kernel
  rw [show k.core.running = some r' from running, Option.map_some, Option.some.injEq] at started
  have waiting : k.world.bus.Owes r'.receiver k.log := by
    -- Nothing has been received yet, so all that was published is still owed.
    obtain ⟨heard, rest, all, covers, owes⟩ := kept.tells
    cases covers
    rw [show k.log = rest from all]
    exact owes
  refine ⟨r', running, isPair_of_started parrots started, k.log, waiting, ?_⟩
  show Chatter k.world.bus.slots k.log
  rw [slots, log]
  exact chatter_of_greetings _

end Parrot

/-- Two parrots that repeat whatever they hear never fall silent, and a core that has just
been started with them can be pumped for any number of turns without coming to an end. -/
theorem parrots_never_fall_silent :
    let k := Course.start (Parrot.core 16 fun type => type) {} (Parrot.world 16)
    k.core.isRunning = true ∧ ∀ fuel, k.core.pump fuel k.world = none := by
  intro k
  obtain ⟨r, running, babble⟩ := Parrot.babble_of_start
  refine ⟨by rw [Core.isRunning, running]; rfl, fun fuel => ?_⟩
  rw [Core.pump, running]
  dsimp only
  rw [Core.pumpFrom_eq_none Parrot.Babble.goes_on fuel babble]
  rfl

end PluginHost
