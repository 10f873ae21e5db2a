import PluginHost.Proofs.PluginId
import PluginHost.Proofs.Session.Failure
import PluginHost.Proofs.Session.Observer

/-!
# What a manager looks like

Plugins are taken in one by one and leave in various ways, several at a time. Between two
actions the list of them is always well formed, and all that a manager can be asked for is told
by this list.

* `Managed.WellMade` is what a managed plugin looks like, `Manager.Answers` what a manager tells
  of them, and `Session.Represented` is both, with the order of the list.

Results:
1. `Step.tidy`: every step keeps the plugins settled and in order.
2. `Attempt.code?_of_reported`: a plugin that is taken in has a full table, and says a proper id
   and version.
3. `manager_is_represented`: the list of plugins in every session.
-/

namespace PluginHost

-- Nothing here depends on how the gate decides, so reduction stops before it.
attribute [local irreducible] Gate.check Files.present

/-! ## Definitions -/

/-- The table that has this interface: no slot of it is empty. -/
def Interface.toTable {σ : Type} (i : Interface σ) : Table σ where
  id := some i.id
  name := some i.name
  version := some i.version
  capabilities := some i.capabilities
  start := some i.start
  stop := some i.stop
  event := some i.event

/-- The plugin is loaded or started, and nothing in between. -/
def Managed.Settled {σ : Type} (p : Managed σ) : Prop :=
  p.state = .loaded ∨ p.state = .initialized

/-- A managed plugin looks as it should, after the loads `tried`.

* `settled`: it is loaded or started.
* `id` and `version`: its id is a reverse-domain identifier, and its version is not blank.
* `table`: it came of a load of a module whose table had all seven functions, and these are the
  ones that are called. -/
structure Managed.WellMade {σ : Type} (p : Managed σ) (tried : List (Attempt σ)) : Prop where
  settled : p.Settled
  id : PluginId.IsReverseDomain p.id
  version : ∃ c ∈ p.version.toList, Blank.isBlank c = false
  table : ∃ a ∈ tried, a.Made p ∧ a.code? = some (.table p.interface.toTable)

/-- What a manager tells of one plugin, or of how many there are, is what its list says. -/
structure Manager.Answers {σ : Type} (m : Manager σ) : Prop where
  info : ∀ id i, m.info? id = some i ↔ i ∈ m.infos ∧ i.id = id
  state : ∀ id, m.state? id = (m.info? id).map (·.state)
  grant : ∀ id, (m.grant? id).map (fun g => (g.plugin, g.granted)) =
    (m.info? id).map fun i => (i.id, i.granted)
  size : m.size = m.infos.length
  isEmpty : m.isEmpty = true ↔ m.infos = []

/-- The plugins of a session are settled, and in the order in which they were loaded. -/
structure Session.Tidy {σ : Type} (s : Session σ) : Prop where
  settled : ∀ p ∈ s.manager.plugins, p.Settled
  order : (s.manager.plugins.map (·.handle)).Sublist
    ((s.tried.filter (·.result.isOk)).map (·.handle))

/-- The manager of a session represents the plugins that are loaded.

* `distinct`: no two of them have the same id.
* `made`: each looks as it should.
* `order`: they are listed in the order of the loads that they came of.
* `found`: a plugin that is not started because of its state has been started before.
* `answers`: all that the manager tells of them is what it lists. -/
structure Session.Represented {σ : Type} (s : Session σ) : Prop where
  distinct : (s.manager.infos.map (·.id)).Nodup
  made : ∀ p ∈ s.manager.plugins, p.WellMade s.tried
  order : (s.manager.plugins.map (·.handle)).Sublist
    ((s.tried.filter (·.result.isOk)).map (·.handle))
  found : ∀ id other expected found w,
    (s.manager.start id w).1 = .error (.invalidState other expected found) →
      other = id ∧ expected = PluginState.loaded.name ∧ found = PluginState.initialized.name
  answers : s.manager.Answers

/-! ## What a module says -/

section modules

variable {σ : Type} {i : Interface σ} {who : Metadata}

/-- A table has an interface if none of its slots is empty. -/
theorem Table.toInterface_eq_ok_iff {t : Table σ} : t.toInterface = .ok i ↔ t = i.toTable := by
  obtain ⟨id, name, version, capabilities, start, stop, event⟩ := t
  constructor
  · intro whole
    cases id <;> cases name <;> cases version <;> cases capabilities <;> cases start <;>
      cases stop <;> cases event <;> cases whole
    rfl
  · rintro ⟨⟩
    rfl

/-- A module that was asked who it is and has answered has a full table, and has told a proper
id and a version. -/
theorem Attempt.code?_of_reported {a : Attempt σ} {t : Trust} (gate : a.check = .ok t)
    (reported : a.reported? = some (i, who)) :
    a.code? = some (.table i.toTable) ∧
      PluginId.isValid who.id = true ∧ Blank.allBlank who.version = false := by
  unfold reported? at reported
  rw [code?, gate]
  cases opens : a.manager.loader a.path a.checked.files a.checked.outside with
  | error reason => simp [opens] at reported
  | ok code =>
    rw [opens] at reported
    cases code with
    | noEntry => cases reported
    | noTable => cases reported
    | table table =>
      cases whole : table.toInterface with
      | error f => simp [Manager.identify_eq, Code.told, whole, Except.toOption] at reported
      | ok j =>
        cases told : j.told a.opened.outside with
        | error f =>
          simp [Manager.identify_eq, Code.told, whole, told, Except.toOption] at reported
        | ok other =>
          simp only [Manager.identify_eq, Code.told, whole, told, Except.toOption,
            Option.some.injEq, Prod.mk.injEq] at reported
          obtain ⟨rfl, rfl⟩ := reported
          rw [Table.toInterface_eq_ok_iff.mp whole]
          obtain ⟨-, valid, shown, -⟩ := Interface.told_eq_ok_iff.mp told
          exact ⟨rfl, valid, shown⟩

end modules

/-! ## Steps -/

section steps

variable {σ : Type} {s s' : Session σ} {p p' : Managed σ} {w w' : World σ}

theorem Turn.settled (turn : Turn p w p' w') (settled : p.Settled) : p'.Settled := by
  cases turn with
  | refuses idle => exact .inl idle
  | accepts => exact .inr rfl
  | hears => exact settled
  | uses => exact settled

/-- A load that no plugin came of changes nothing. -/
theorem Session.Tidy.failed (tidy : s.Tidy) (a : Attempt σ) (w : World σ) :
    Session.Tidy ⟨s.manager, w, s.tried ++ [a]⟩ := by
  refine ⟨tidy.settled, ?_⟩
  rw [List.filter_append, List.map_append]
  exact tidy.order.trans (List.sublist_append_left ..)

theorem Session.Tidy.tries (tidy : s.Tidy) {path : String} {m : Manager σ}
    (came : (s.attempt path).Came m w) : Session.Tidy ⟨m, w, s.tried ++ [s.attempt path]⟩ := by
  cases came with
  | refused => exact tidy.failed _ _
  | unopened => exact tidy.failed _ _
  | rejected => exact tidy.failed _ _
  | @joined t i who w _ _ _ result _ =>
    refine ⟨Manager.forall_joined.mpr ⟨tidy.settled, .inl rfl⟩, ?_⟩
    have good : [s.attempt path].filter (·.result.isOk) = [s.attempt path] := by
      simp [result, Except.isOk, Except.toBool]
    rw [List.map_append, List.filter_append, List.map_append, good]
    exact tidy.order.append (.refl _)

/-- Every step keeps the plugins settled and in order. -/
theorem Step.tidy (step : Step s s') (tidy : s.Tidy) : s'.Tidy := by
  cases step with
  | tries path came => exact tidy.tries came
  | @turns before after p p' w here turn =>
    obtain ⟨settled, order⟩ := tidy
    rw [here] at settled order
    obtain ⟨one, others⟩ := Manager.forall_placed.mp settled
    refine ⟨Manager.forall_placed.mpr ⟨turn.settled one, others⟩, ?_⟩
    simpa [Session.move, turn.handle_eq] using order
  | @leaves before after p w here leaving =>
    obtain ⟨settled, order⟩ := tidy
    rw [here] at settled order
    obtain ⟨-, others⟩ := Manager.forall_placed.mp settled
    have fewer : (before ++ after).Sublist (before ++ p :: after) :=
      List.Sublist.append_left (List.sublist_cons_self p after) before
    exact ⟨fun q hq => others q (List.mem_append.mp hq), (fewer.map _).trans order⟩
  | idles => exact ⟨tidy.settled, tidy.order⟩

/-- The plugins of every session are settled and in order. -/
theorem Session.run_tidy (m : Manager σ) (w : World σ) (actions : List (Action σ)) :
    ((new m w).run actions).Tidy := by
  have start : (new m w).Tidy := ⟨by simp [new], List.nil_sublist _⟩
  exact (run_induction (fun _ _ _ step tidy => step.tidy tidy) start actions).2

end steps

/-! ## Questions -/

namespace Manager

variable {σ : Type} {m : Manager σ}

/-- Where ids differ and grants have the names of their plugins, all answers agree. -/
theorem answers (distinct : (m.plugins.map (·.id)).Nodup)
    (own : ∀ p ∈ m.plugins, p.grant.plugin = p.id) : m.Answers where
  info id i := by
    constructor
    · intro found
      obtain ⟨p, hp, rfl⟩ := Option.map_eq_some_iff.mp found
      obtain ⟨same, before, after, here⟩ := place_of_find? hp
      exact ⟨List.mem_map_of_mem (by simp [here]), same⟩
    · rintro ⟨listed, rfl⟩
      obtain ⟨p, hp, rfl⟩ := List.mem_map.mp listed
      obtain ⟨before, after, here⟩ := List.append_of_mem hp
      exact congrArg (Option.map Managed.info) (find?_at here distinct)
  state id := by
    rw [state?, info?, Option.map_map]
    rfl
  grant id := by
    rw [grant?, info?, Option.map_map, Option.map_map]
    cases found : m.find? id with
    | none => rfl
    | some p =>
      obtain ⟨-, before, after, here⟩ := place_of_find? found
      have name : p.grant.plugin = p.id := own p (by simp [here])
      simp [Managed.info, name]
  size := by rw [size, infos, List.length_map]
  isEmpty := by rw [isEmpty, infos, List.isEmpty_iff, List.map_eq_nil_iff]

/-- Where plugins are settled, one that is in no state to be started is started. -/
theorem start_invalidState (settled : ∀ p ∈ m.plugins, p.Settled) {id other expected found : String}
    {w : World σ} (fault : (m.start id w).1 = .error (.invalidState other expected found)) :
    other = id ∧ expected = PluginState.loaded.name ∧ found = PluginState.initialized.name := by
  unfold start at fault
  split at fault
  · cases fault
  next p hp =>
  split at fault
  · next busy =>
    obtain ⟨-, before, after, here⟩ := place_of_find? hp
    have state : p.state = .initialized := (settled p (by simp [here])).resolve_left busy
    cases fault
    exact ⟨rfl, rfl, by rw [state]⟩
  · dsimp only at fault
    split at fault <;> cases fault

end Manager

/-- In every session, whatever was loaded, started, refused and unloaded in it, the manager
represents the plugins that are loaded. -/
theorem manager_is_represented {σ : Type} (m : Manager σ) (w : World σ)
    (actions : List (Action σ)) : ((Session.new m w).run actions).Represented := by
  obtain ⟨valid, traced⟩ := Session.run_traced m w actions
  have tidy := Session.run_tidy m w actions
  generalize (Session.new m w).run actions = s at valid traced tidy
  constructor
  case distinct =>
    rw [Manager.infos, List.map_map]
    exact valid.ids
  case made =>
    intro p hp
    obtain ⟨a, ha, t, who, origin⟩ := traced.origin p hp
    obtain ⟨code, id, version⟩ := Attempt.code?_of_reported origin.gate origin.reported
    rw [← origin.id_eq] at id
    rw [← origin.version_eq, Blank.allBlank, List.all_eq_false] at version
    obtain ⟨c, hc, solid⟩ := version
    exact ⟨tidy.settled p hp, PluginId.isValid_iff.mp id,
      ⟨c, hc, Bool.eq_false_iff.mpr solid⟩, a, ha, origin.made, code⟩
  case order => exact tidy.order
  case found => exact fun _ _ _ _ _ => Manager.start_invalidState tidy.settled
  case answers =>
    refine Manager.answers valid.ids fun p hp => ?_
    obtain ⟨a, -, t, who, origin⟩ := traced.origin p hp
    exact origin.grant_plugin

/-- A plugin that refused once and was then started cannot be started again. -/
theorem hesitant_is_represented :
    let s := (Hesitant.fresh .opened {} []).run (Hesitant.actions.take 4)
    s.manager.infos.map (fun i => (i.id, i.path, i.state)) =
        [("org.hesitant", "a.so", .initialized)] ∧
      (s.manager.start "org.hesitant" s.world).1 =
        .error (.invalidState "org.hesitant" "loaded" "initialized") ∧ s.Represented := by
  intro s
  exact ⟨by decide +kernel, by decide +kernel, manager_is_represented _ _ _⟩

end PluginHost
