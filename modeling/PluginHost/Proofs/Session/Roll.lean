import Mathlib.Data.List.Nodup
import PluginHost.Proofs.Session.Actions
import PluginHost.Proofs.Session.Dispatch

/-!
# The roll of plugins

A manager publishes what becomes of its plugins. Somebody who only hears the events can
keep a roll of them: who is loaded, in which version, and how far it has come.

Result: `Session.perform_reports`. What an action publishes is exactly what takes the roll
from the plugins before it to the plugins after it, and does not depend on the bus.
-/

namespace PluginHost

-- Nothing here depends on how paths are taken apart, so reduction stops before it.
attribute [local irreducible] Gate.check Files.present

/-! ## Definitions -/

/-- The ids, versions and states of plugins, in load order. -/
abbrev Roll := List (String × String × PluginState)

/-- The roll after an event. -/
def Roll.note (roll : Roll) : Event → Roll
  | .pluginLoaded id version => roll ++ [(id, version, .loaded)]
  | .pluginInitialized id =>
    roll.map fun entry => if entry.1 = id then (entry.1, entry.2.1, .initialized) else entry
  | .pluginUnloaded id => roll.filter fun entry => entry.1 ≠ id
  | .pluginError _ _ => roll
  | .plugin _ _ _ _ => roll
  | .shutdown => roll

/-- The roll after some events. -/
def Roll.noteAll (roll : Roll) (events : List Event) : Roll :=
  events.foldl note roll

/-- The entry of a plugin. -/
def Managed.entry {σ : Type} (p : Managed σ) : String × String × PluginState :=
  (p.id, p.version, p.state)

namespace Manager

variable {σ : Type}

/-- The roll as it should be. -/
def roll (m : Manager σ) : Roll :=
  m.infos.map fun i => (i.id, i.version, i.state)

/-- No two plugins have the same id. -/
def Distinct (m : Manager σ) : Prop :=
  (m.plugins.map (·.id)).Nodup

end Manager

/-- `Reports f m w`: in the world `w`, what `f` publishes is what takes the roll from the
plugins of `m` to those that `f` comes to. -/
def Reports {σ α : Type} (f : World σ → α × Manager σ × World σ) (m : Manager σ) (w : World σ) :
    Prop :=
  ∃ events, Speaks f w events ∧ m.roll.noteAll events = (f w).2.1.roll

/-- An action that leaves the bus as it is. -/
def Action.onBus {σ : Type} (bus : Bus Event) : Action σ → Action σ
  | .elapse files _ now outside => .elapse files bus now outside
  | a => a

namespace Session

variable {σ : Type}

/-- The session after an action, where nothing but the action itself touches the bus. -/
def perform (s : Session σ) (a : Action σ) : Session σ :=
  s.act (a.onBus s.world.bus)

/-- What an action makes of a world, and of the plugins. -/
def effect (s : Session σ) (a : Action σ) (w : World σ) : Unit × Manager σ × World σ :=
  let next := ({ s with world := w } : Session σ).perform a
  ((), next.manager, next.world)

/-- What an action publishes. -/
def said (s : Session σ) (a : Action σ) : List Event :=
  s.world.said fun w => (s.effect a w).2.2

end Session

/-! ## Rolls -/

namespace Roll

variable {roll : Roll} {events more : List Event}

theorem noteAll_append (roll : Roll) (events more : List Event) :
    roll.noteAll (events ++ more) = (roll.noteAll events).noteAll more :=
  List.foldl_append ..

/-- What plugins say changes no roll. -/
theorem noteAll_own (own : ∀ e ∈ events, e.kind = .plugin) : roll.noteAll events = roll := by
  induction events with
  | nil => rfl
  | cons e events ih =>
    have same : roll.note e = roll := by
      cases e with
      | plugin => rfl
      | pluginLoaded | pluginInitialized | pluginUnloaded | pluginError | shutdown =>
        exact absurd (own _ List.mem_cons_self) (by simp [Event.kind])
    show (roll.note e).noteAll events = roll
    rw [same]
    exact ih fun e he => own e (List.mem_cons_of_mem _ he)

/-- A note after what plugins say. -/
theorem noteAll_own_concat (own : ∀ e ∈ events, e.kind = .plugin) (e : Event) :
    roll.noteAll (events ++ [e]) = roll.note e := by
  rw [noteAll_append, noteAll_own own]
  rfl

end Roll

namespace Manager

variable {σ : Type} {m : Manager σ} {p q : Managed σ}

theorem roll_eq (m : Manager σ) : m.roll = m.plugins.map Managed.entry := by
  rw [roll, infos, List.map_map]
  rfl

/-- In a place of a plugin with the same id and version, only the state can differ. -/
theorem roll_replace (distinct : m.Distinct) (hp : p ∈ m.plugins) (id : q.id = p.id)
    (version : q.version = p.version) :
    (m.replace q).roll =
      m.roll.map fun entry => if entry.1 = p.id then (entry.1, entry.2.1, q.state) else entry := by
  rw [roll_eq, roll_eq, replace, List.map_map, List.map_map]
  refine List.map_congr_left fun r hr => ?_
  by_cases same : r.id = p.id
  · have eq : r = p := List.inj_on_of_nodup_map distinct hr hp same
    simp [Function.comp, Managed.entry, id, version, eq]
  · simp [Function.comp, Managed.entry, id, same]

/-- In the place of a plugin with the same entry, nothing differs. -/
theorem roll_replace_same (distinct : m.Distinct) (hp : p ∈ m.plugins) (same : q.entry = p.entry) :
    (m.replace q).roll = m.roll := by
  rw [roll_eq, roll_eq, replace, List.map_map]
  refine List.map_congr_left fun r hr => ?_
  have id : q.id = p.id := congrArg Prod.fst same
  by_cases here : r.id = p.id
  · have eq : r = p := List.inj_on_of_nodup_map distinct hr hp here
    simp [Function.comp, id, eq, same]
  · simp [Function.comp, id, here]

theorem roll_grant (distinct : m.Distinct) (hp : p ∈ m.plugins) (g : Grant) :
    (m.replace { p with grant := g }).roll = m.roll :=
  roll_replace_same distinct hp rfl

theorem distinct_replace (distinct : m.Distinct) : (m.replace q).Distinct := by
  have same : (m.replace q).plugins.map (·.id) = m.plugins.map (·.id) := by
    rw [replace, List.map_map]
    refine List.map_congr_left fun r _ => ?_
    by_cases here : r.id = q.id <;> simp [Function.comp, here]
  rw [Distinct, same]
  exact distinct

theorem distinct_of_sublist {m' : Manager σ} (distinct : m.Distinct)
    (fewer : m'.plugins.Sublist m.plugins) : m'.Distinct :=
  (fewer.map _).nodup distinct

/-- A plugin is only taken in if its id is free. -/
theorem distinct_load (distinct : m.Distinct) (path : String) (w : World σ) :
    (m.load path w).2.1.Distinct := by
  have came := (⟨m, w, path⟩ : Attempt σ).came
  simp only [Attempt.run] at came
  generalize m.load path w = r at came
  obtain ⟨result, m', w'⟩ := r
  cases came with
  | refused => exact distinct
  | unopened => exact distinct
  | rejected => exact distinct
  | @joined t i who w' _ _ vetted =>
    simp only [Distinct, List.map_append, List.map_cons, List.map_nil, List.nodup_append,
      List.mem_map, List.mem_singleton]
    refine ⟨distinct, by simp, ?_⟩
    rintro _ ⟨q, hq, rfl⟩ _ rfl
    exact free_of_vet vetted hq

theorem distinct_discover (distinct : m.Distinct) (dir extension : String) (w : World σ) :
    (m.discover dir extension w).2.1.Distinct := by
  have each (paths : List String) : (m.loadEach w paths).2.1.Distinct := by
    induction paths generalizing m w with
    | nil => exact distinct
    | cons path rest ih =>
      have first := distinct_load distinct path w
      rcases load : m.load path w with ⟨e | id, m', w'⟩
      · rw [load] at first
        rw [loadEach_of_error load]
        exact ih first _
      · rw [load] at first
        rw [loadEach_of_ok load]
        exact ih first _
  unfold discover
  split
  · exact each _
  · exact distinct

theorem distinct_start (distinct : m.Distinct) (id : String) (w : World σ) :
    (m.start id w).2.1.Distinct := by
  unfold start
  repeat' split
  all_goals first | exact distinct | exact distinct_replace distinct

theorem distinct_startAll (distinct : m.Distinct) (w : World σ) : (m.startAll w).2.1.Distinct := by
  have each (ids : List String) : (m.startEach w ids).2.1.Distinct := by
    induction ids generalizing m w with
    | nil => exact distinct
    | cons id rest ih => exact ih (distinct_start distinct id w) _
  exact each _

/-- An event changes nothing of a plugin but what it has been granted. -/
theorem distinct_dispatch (distinct : m.Distinct) (source : Option String) (type payload : String)
    (w : World σ) : (m.dispatch source type payload w).2.1.Distinct := by
  obtain ⟨_, dispatched⟩ := dispatchTo_dispatched m.host source type payload m.plugins w
  have same := congrArg (List.map Managed.id) dispatched.same
  rw [List.map_map, List.map_map] at same
  exact (congrArg List.Nodup same).mpr distinct

theorem distinct_unload (distinct : m.Distinct) (id : String) (w : World σ) :
    (m.unload id w).2.1.Distinct := by
  unfold unload
  split
  · exact distinct
  · exact distinct_of_sublist distinct List.filter_sublist

theorem distinct_unloadUnstarted (distinct : m.Distinct) (w : World σ) :
    (m.unloadUnstarted w).2.1.Distinct :=
  distinct_of_sublist distinct List.filter_sublist

end Manager

/-! ## Reports in a row -/

namespace Reports

variable {σ α γ : Type} {m : Manager σ} {w : World σ} {f : World σ → α × Manager σ × World σ}

/-- Nothing is reported where nothing is published and the entries stay. -/
theorem nothing (speaks : Speaks f w []) (same : (f w).2.1.roll = m.roll) : Reports f m w :=
  ⟨[], speaks, same.symm⟩

/-- What is said first is reported first. -/
theorem bind {g : α → Manager σ → World σ → γ × Manager σ × World σ} (first : Reports f m w)
    (rest : Reports (g (f w).1 (f w).2.1) (f w).2.1 (f w).2.2) :
    Reports (fun w => g (f w).1 (f w).2.1 (f w).2.2) m w := by
  obtain ⟨events, speaks, roll⟩ := first
  obtain ⟨more, speaks', roll'⟩ := rest
  refine ⟨events ++ more, speaks.bind speaks', ?_⟩
  rw [Roll.noteAll_append, roll, roll']

/-- The answer that something gives besides does not matter. -/
theorem map (reports : Reports f m w) (k : α → γ) :
    Reports (fun w => (k (f w).1, (f w).2)) m w := by
  obtain ⟨events, speaks, roll⟩ := reports
  refine ⟨events, fun bus => ?_, roll⟩
  simp only [speaks bus]

end Reports

/-! ## Loads -/

section loads

variable {σ : Type}

namespace Manager

variable (m : Manager σ) (path : String) (w : World σ)

theorem identify_withBus (code : Code σ) (h : Handle) (bus : Bus Event) :
    identify path code h (w.withBus bus) =
      ((identify path code h w).1, (identify path code h w).2.withBus bus) := by
  rw [identify_eq, identify_eq]
  rfl

theorem take_reports (trust : Trust) (code : Code σ) (h : Handle) :
    Reports (m.take path trust code h) m w := by
  rcases found : identify path code h w with ⟨e | ⟨i, who⟩, w'⟩
  · have taken (bus : Bus Event) : m.take path trust code h (w.withBus bus) =
        (.error e, m, (w'.withBus bus).closeHandle h) := by
      simp only [take, identify_withBus, found]
    have here := taken w.bus
    rw [World.withBus_self] at here
    exact .nothing (fun bus => by rw [taken, here]; rfl) (by rw [here])
  cases vetted : m.vet path trust who with
  | error e =>
    have taken (bus : Bus Event) : m.take path trust code h (w.withBus bus) =
        (.error e, m, (w'.withBus bus).closeHandle h) := by
      simp only [take, identify_withBus, found, vetted]
    have here := taken w.bus
    rw [World.withBus_self] at here
    exact .nothing (fun bus => by rw [taken, here]; rfl) (by rw [here])
  | ok =>
    have taken (bus : Bus Event) : m.take path trust code h (w.withBus bus) =
        (.ok who.id, { m with plugins := m.plugins ++ [newcomer m.policy path trust i who h] },
          (w'.withBus bus).publish (.pluginLoaded who.id who.version)) := by
      simp only [take, identify_withBus, found, vetted]
    have here := taken w.bus
    rw [World.withBus_self] at here
    refine ⟨[.pluginLoaded who.id who.version], fun bus => by rw [taken, here]; rfl, ?_⟩
    simp [here, roll_eq, Roll.noteAll, Roll.note, newcomer, Managed.entry]

/-- A load reports the plugin that it takes in. -/
theorem load_reports : Reports (m.load path) m w := by
  rcases gate : m.gate.check path w.files with ⟨e | t, files⟩
  · have refused (bus : Bus Event) := load_of_refused (w := w.withBus bus) gate
    have here := load_of_refused gate
    exact .nothing (fun bus => by rw [refused, here]; rfl) (by rw [here])
  cases code : m.loader path files w.outside with
  | error reason =>
    have unopened (bus : Bus Event) := load_of_unopened (w := w.withBus bus) gate code
    have here := load_of_unopened gate code
    exact .nothing (fun bus => by rw [unopened, here]; rfl) (by rw [here])
  | ok code' =>
    have opened (bus : Bus Event) := load_of_opened (w := w.withBus bus) gate code
    have here := load_of_opened gate code
    obtain ⟨events, speaks, roll⟩ := m.take_reports path
      (World.openHandle { w with files } path).2 t code' ⟨w.handles, path⟩
    refine ⟨events, fun bus => ?_, by rw [here]; exact roll⟩
    rw [opened, here]
    exact speaks bus

/-- Each candidate is reported before the next one is tried, one that failed under its
path. -/
theorem loadEach_reports (paths : List String) : Reports (fun w => m.loadEach w paths) m w := by
  induction paths generalizing m w with
  | nil => exact .nothing (fun _ => rfl) rfl
  | cons path rest ih =>
    obtain ⟨events, speaks, roll⟩ := m.load_reports path w
    rcases load : m.load path w with ⟨e | id, m', w'⟩
    · have error (bus : Bus Event) := loadEach_of_error (by rw [speaks bus, load]) rest
      have here := loadEach_of_error load rest
      rw [load] at roll
      obtain ⟨more, speaks', roll'⟩ := ih m' (w'.publish (.pluginError path e.message))
      refine ⟨events ++ ([.pluginError path e.message] ++ more), fun bus => ?_, ?_⟩
      · have later := speaks' ((bus.publishAll events).publishAll [.pluginError path e.message])
        simp only [error bus, here, World.publish_withBus, later, Bus.publishAll_append]
      · rw [Roll.noteAll_append, roll]
        show _ = (m.loadEach w (path :: rest)).2.1.roll
        rw [here]
        exact roll'
    · have ok (bus : Bus Event) := loadEach_of_ok (by rw [speaks bus, load]) rest
      have here := loadEach_of_ok load rest
      rw [load] at roll
      obtain ⟨more, speaks', roll'⟩ := ih m' w'
      refine ⟨events ++ more, fun bus => ?_, ?_⟩
      · simp only [ok bus, here, speaks' _, Bus.publishAll_append]
      · rw [Roll.noteAll_append, roll]
        show _ = (m.loadEach w (path :: rest)).2.1.roll
        rw [here]
        exact roll'

theorem discover_reports (dir extension : String) :
    Reports (m.discover dir extension) m w := by
  obtain ⟨events, speaks, roll⟩ := m.loadEach_reports w (w.files.candidates dir extension)
  by_cases present : w.files.present dir
  · refine ⟨events, fun bus => ?_, ?_⟩
    · simp only [discover, World.withBus_files, present, ↓reduceIte, speaks bus]
    · simpa only [discover, present, ↓reduceIte] using roll
  · refine .nothing (fun bus => ?_) ?_
    · simp only [discover, World.withBus_files, present]
      rfl
    · simp only [discover, present]
      rfl

end Manager

end loads

/-! ## Starts and events -/

namespace Manager

variable {σ : Type} {m : Manager σ} (w : World σ)

/-- A plugin that starts is reported, and so is one that refuses. -/
theorem start_reports (distinct : m.Distinct) (id : String) : Reports (m.start id) m w := by
  unfold start
  cases found : m.find? id with
  | none => exact .nothing (fun _ => rfl) rfl
  | some p =>
    obtain ⟨rfl, before, after, here⟩ := place_of_find? found
    have hp : p ∈ m.plugins := by simp [here]
    by_cases idle : p.state = .loaded
    · obtain ⟨events, own, speaks⟩ := p.interface.runStart_speaks m.host p.handle p.grant w
      have own' : ∀ e ∈ events, e.kind = .plugin := fun e he => (own e he).kind
      simp only [idle, not_true_eq_false, ↓reduceIte, ne_eq]
      rcases ran : p.interface.runStart m.host p.handle (some p.grant) w with ⟨accepted, g, w'⟩
      cases accepted with
      | true =>
        refine ⟨events ++ [.pluginInitialized p.id], fun bus => ?_, ?_⟩
        · simp only [speaks bus, ran, World.publish_withBus, Bus.publishAll_append, ↓reduceIte]
        · simp only [ran, ↓reduceIte, Roll.noteAll_own_concat own', Roll.note]
          exact (roll_replace (q := { p with grant := grantAfter p.grant g, state := .initialized })
            distinct hp rfl rfl).symm
      | false =>
        refine ⟨events ++ [.pluginError p.id refusal], fun bus => ?_, ?_⟩
        · simp only [speaks bus, ran, World.publish_withBus, Bus.publishAll_append,
            Bool.false_eq_true, ↓reduceIte]
        · simp only [ran, Bool.false_eq_true, ↓reduceIte, Roll.noteAll_own_concat own', Roll.note]
          exact (roll_replace_same distinct hp (by simp only [Managed.entry, idle])).symm
    · simp only [idle, not_false_eq_true, ↓reduceIte, ne_eq]
      exact .nothing (fun _ => rfl) rfl

theorem startEach_reports (distinct : m.Distinct) (ids : List String) :
    Reports (fun w => m.startEach w ids) m w := by
  induction ids generalizing m w with
  | nil => exact .nothing (fun _ => rfl) rfl
  | cons id rest ih =>
    have rest := ih (m.start id w).2.2 (distinct_start distinct id w)
    have more := rest.map fun n => n + (if (m.start id w).1.toBool then 1 else 0)
    exact (start_reports w distinct id).bind
      (g := fun r m w => ((m.startEach w _).1 + (if r.toBool then 1 else 0), (m.startEach w _).2))
      more

theorem startAll_reports (distinct : m.Distinct) : Reports m.startAll m w :=
  startEach_reports w distinct _

theorem dispatch_reports (source : Option String) (type payload : String) :
    Reports (m.dispatch source type payload) m w := by
  obtain ⟨events, dispatched⟩ := dispatchTo_dispatched m.host source type payload m.plugins w
  refine ⟨events, fun bus => ?_, ?_⟩
  · simp only [dispatch, dispatched.speaks bus]
  · have same := congrArg (List.map Managed.entry) dispatched.same
    rw [List.map_map, List.map_map] at same
    rw [Roll.noteAll_own dispatched.kind, roll_eq, roll_eq]
    exact same.symm

end Manager

/-! ## Releases -/

namespace Manager

variable {σ : Type} {m : Manager σ} (w : World σ)

/-- Of a plugin that is released all is heard that it says while it stops, and then its
end. -/
theorem release_speaks (host : Host) (p : Managed σ) :
    ∃ events, (∀ e ∈ events, e.kind = .plugin) ∧
      Speaks (fun w => ((), (), release host p w)) w (events ++ [.pluginUnloaded p.id]) := by
  unfold release stopIfStarted
  split
  · obtain ⟨events, own, speaks⟩ := p.interface.runStop_speaks host p.handle p.grant w
    refine ⟨events, fun e he => (own e he).kind, fun bus => ?_⟩
    have stopped := congrArg (fun r => r.2.2) (speaks bus)
    simp only at stopped
    simp only [stopped, Bus.publishAll_append]
    rfl
  · exact ⟨[], by simp, fun _ => rfl⟩

theorem releaseEach_speaks (host : Host) (ps : List (Managed σ)) :
    ∃ events, Speaks (fun w => ((), (), releaseEach host ps w)) w events ∧
      ∀ roll : Roll, roll.noteAll events = roll.filter fun entry => entry.1 ∉ ps.map (·.id) := by
  induction ps generalizing w with
  | nil => exact ⟨[], fun _ => rfl, fun roll => by simp [Roll.noteAll]⟩
  | cons p rest ih =>
    obtain ⟨events, own, speaks⟩ := release_speaks w host p
    obtain ⟨more, speaks', gone⟩ := ih (release host p w)
    refine ⟨_, speaks.bind (g := fun _ _ w => ((), (), releaseEach host rest w)) speaks',
      fun roll => ?_⟩
    rw [Roll.noteAll_append, Roll.noteAll_own_concat own, Roll.note, gone, List.filter_filter]
    refine List.filter_congr fun entry _ => ?_
    by_cases h : entry.1 = p.id <;> simp [h]

theorem unload_reports (id : String) : Reports (m.unload id) m w := by
  unfold unload
  cases found : m.find? id with
  | none => exact .nothing (fun _ => rfl) rfl
  | some p =>
    obtain ⟨events, own, speaks⟩ := release_speaks w m.host p
    refine ⟨events ++ [.pluginUnloaded p.id], fun bus => ?_, ?_⟩
    · simp only [speaks.world bus]
    · obtain ⟨rfl, -⟩ := place_of_find? found
      rw [Roll.noteAll_own_concat own, Roll.note, roll_eq, roll_eq, without, List.filter_map]
      rfl

theorem unloadUnstarted_reports (distinct : m.Distinct) : Reports m.unloadUnstarted m w := by
  obtain ⟨events, speaks, gone⟩ := releaseEach_speaks w m.host
    (m.plugins.filter fun p => p.state = .loaded).reverse
  refine ⟨events, fun bus => ?_, ?_⟩
  · simp only [unloadUnstarted, speaks.world bus]
  · rw [gone, roll_eq, roll_eq, unloadUnstarted, List.filter_map]
    refine congrArg _ (List.filter_congr fun p hp => ?_)
    have idle : p.id ∈ (m.plugins.filter fun p => p.state = .loaded).reverse.map (·.id) ↔
        p.state = .loaded := by
      constructor
      · intro there
        obtain ⟨q, hq, same⟩ := List.mem_map.mp there
        obtain ⟨hq, loaded⟩ := List.mem_filter.mp (List.mem_reverse.mp hq)
        rw [← List.inj_on_of_nodup_map distinct hq hp same]
        simpa using loaded
      · intro loaded
        have here : p ∈ m.plugins.filter fun p => p.state = .loaded :=
          List.mem_filter.mpr ⟨hp, by simp [loaded]⟩
        exact List.mem_map_of_mem (List.mem_reverse.mpr here)
    simp only [Function.comp, Managed.entry, idle, ne_eq]

theorem shutdown_reports : Reports (fun w => ((), m.shutdown w)) m w := by
  obtain ⟨events, speaks, gone⟩ := releaseEach_speaks w m.host m.plugins.reverse
  refine ⟨events, fun bus => ?_, ?_⟩
  · simp only [shutdown, speaks.world bus]
  · rw [gone, roll_eq]
    refine List.filter_eq_nil_iff.mpr fun entry he => ?_
    obtain ⟨p, hp, rfl⟩ := List.mem_map.mp he
    have there : p.id ∈ m.plugins.reverse.map (·.id) :=
      List.mem_map_of_mem (List.mem_reverse.mpr hp)
    simpa [Managed.entry] using there

end Manager

/-! ## Actions -/

namespace Session

variable {σ : Type} {s : Session σ}

theorem effect_use {h : Handle} {p : Managed σ} (found : s.manager.ofHandle? h = some p)
    (t : Hook σ Unit) (w : World σ) : s.effect (.use h t) w =
      let ran := t.run s.manager.host p.handle (some p.grant) w
      ((), s.manager.replace { p with grant := Manager.grantAfter p.grant ran.2.1 }, ran.2.2) := by
  simp only [effect, perform, act, Action.onBus, found, Option.elim_some, use, move]

theorem effect_request {h : Handle} {p : Managed σ} (found : s.manager.ofHandle? h = some p)
    (m : Mask) (w : World σ) : s.effect (.request h m) w =
      let asked := s.manager.request p.id m
      ((), asked.2, w.note (.answered p.handle (.request m) (asked.1.getD false))) := by
  simp only [effect, perform, act, Action.onBus, found, Option.elim_some, request, move]

theorem effect_of_absent {a : Action σ} {h : Handle} (found : s.manager.ofHandle? h = none)
    (ofHandle : (∃ t, a = .use h t) ∨ ∃ m, a = .request h m) (w : World σ) :
    s.effect a w = ((), s.manager, w) := by
  obtain ⟨t, rfl⟩ | ⟨m, rfl⟩ := ofHandle
  · simp only [effect, perform, act, Action.onBus, found, Option.elim_none]
  · simp only [effect, perform, act, Action.onBus, found, Option.elim_none]

theorem use_reports (distinct : s.manager.Distinct) (h : Handle) (t : Hook σ Unit) :
    Reports (s.effect (.use h t)) s.manager s.world := by
  cases found : s.manager.ofHandle? h with
  | none =>
    have same := effect_of_absent found (.inl ⟨t, rfl⟩)
    exact .nothing (fun _ => by simp only [same, Bus.publishAll_nil]) (by rw [same])
  | some p =>
    obtain ⟨-, before, after, here⟩ := Manager.place_of_handle found
    have hp : p ∈ s.manager.plugins := by simp [here]
    obtain ⟨events, own, speaks⟩ := t.run_speaks s.manager.host p.handle p.grant s.world
    refine ⟨events, fun bus => ?_, ?_⟩
    · simp only [effect_use found, speaks bus]
    · rw [Roll.noteAll_own fun e he => (own e he).kind, effect_use found]
      exact (Manager.roll_grant distinct hp _).symm

theorem request_reports (distinct : s.manager.Distinct) (h : Handle) (m : Mask) :
    Reports (s.effect (.request h m)) s.manager s.world := by
  cases found : s.manager.ofHandle? h with
  | none =>
    have same := effect_of_absent found (.inr ⟨m, rfl⟩)
    exact .nothing (fun _ => by simp only [same, Bus.publishAll_nil]) (by rw [same])
  | some p =>
    refine .nothing (fun _ => by simp only [effect_request found]; rfl) ?_
    simp only [effect_request found, Manager.request]
    cases known : s.manager.find? p.id with
    | none => rfl
    | some q =>
      obtain ⟨-, before, after, here⟩ := Manager.place_of_find? known
      have hq : q ∈ s.manager.plugins := by simp [here]
      exact Manager.roll_grant distinct hq _

/-- What an action publishes is what takes the roll from the plugins before it to those
after it. -/
theorem perform_reports (distinct : s.manager.Distinct) (a : Action σ) :
    Reports (s.effect a) s.manager s.world := by
  cases a with
  | load path => exact (s.manager.load_reports path s.world).map fun _ => ()
  | discover dir extension =>
    exact (s.manager.discover_reports s.world dir extension).map fun _ => ()
  | start id => exact (Manager.start_reports s.world distinct id).map fun _ => ()
  | startAll => exact (Manager.startAll_reports s.world distinct).map fun _ => ()
  | dispatch source type payload =>
    exact (Manager.dispatch_reports s.world source type payload).map fun _ => ()
  | unload id => exact (Manager.unload_reports s.world id).map fun _ => ()
  | unloadUnstarted => exact (Manager.unloadUnstarted_reports s.world distinct).map fun _ => ()
  | shutdown => exact (Manager.shutdown_reports s.world).map fun _ => ()
  | use h t => exact use_reports distinct h t
  | request h m => exact request_reports distinct h m
  | elapse files bus now outside => exact .nothing (fun _ => rfl) rfl

theorem distinct_perform (distinct : s.manager.Distinct) (a : Action σ) :
    (s.perform a).manager.Distinct := by
  cases a with
  | load path => exact Manager.distinct_load distinct path s.world
  | discover dir extension => exact Manager.distinct_discover distinct dir extension s.world
  | start id => exact Manager.distinct_start distinct id s.world
  | startAll => exact Manager.distinct_startAll distinct s.world
  | dispatch source type payload =>
    exact Manager.distinct_dispatch distinct source type payload s.world
  | unload id => exact Manager.distinct_unload distinct id s.world
  | unloadUnstarted => exact Manager.distinct_unloadUnstarted distinct s.world
  | shutdown => exact List.nodup_nil
  | use h t =>
    show (s.effect (.use h t) s.world).2.1.Distinct
    cases found : s.manager.ofHandle? h with
    | none =>
      rw [effect_of_absent found (.inl ⟨t, rfl⟩)]
      exact distinct
    | some p =>
      rw [effect_use found]
      exact Manager.distinct_replace distinct
  | request h m =>
    show (s.effect (.request h m) s.world).2.1.Distinct
    cases found : s.manager.ofHandle? h with
    | none =>
      rw [effect_of_absent found (.inr ⟨m, rfl⟩)]
      exact distinct
    | some p =>
      simp only [effect_request found, Manager.request]
      cases s.manager.find? p.id with
      | none => exact distinct
      | some q => exact Manager.distinct_replace distinct
  | elapse files bus now outside => exact distinct

end Session

end PluginHost
