import PluginHost.Proofs.Core.Routing

/-!
# The start of a core

A start tries every candidate of the plugin directory, starts every plugin that came of it,
and releases those that refuse. Each candidate ends in one of the three lists of the report,
and the journal says why.

* `Attempt.card?` is what is known of a plugin from the attempt that loaded it; plugins keep
  their cards while they are started and released.
* `Managed.AllTried` is what happens while plugins are started one after the other.

Results:
1. `Manager.discover_loads`: the plugins that are loaded are those of the attempts.
2. `Manager.startAll_tried`: each of them is started once, and accepts or refuses.
3. `Manager.unloadUnstarted_closes`: those that refused are closed, and that is all.
4. `Core.start_begun`: all that is known of a core after its start.
-/

namespace PluginHost

-- Nothing here depends on how paths are taken apart, so reduction stops before it.
attribute [local irreducible] Gate.check Files.present

/-! ## Definitions -/

/-- Who a plugin is and which module it has. -/
structure Card where
  id : String
  path : String
  handle : Handle
  deriving DecidableEq, Repr

def Managed.card {σ : Type} (p : Managed σ) : Card :=
  ⟨p.id, p.path, p.handle⟩

/-- The card of the plugin that was loaded, if one was. -/
def Attempt.card? {σ : Type} (a : Attempt σ) : Option Card :=
  a.result.toOption.map fun id => ⟨id, a.path, a.handle⟩

namespace Entry

/-- An entry that loading may leave. -/
def OfLoad : Entry → Prop
  | .opened _ => True
  | .closed _ => True
  | .asked _ _ => True
  | _ => False

/-- An entry that starting may leave. -/
def OfStart : Entry → Prop
  | .starting _ _ => True
  | .started _ _ => True
  | .answered _ _ _ => True
  | _ => False

end Entry

namespace Managed

variable {σ : Type}

/-- A loaded plugin is started, and the journal gains some entries: the start, the answers
that the plugin was given, and what it said in the end. -/
inductive Tried (p : Managed σ) : Managed σ → List Entry → Prop
  | ends (accepted : Bool) (g : Grant) (answers : List Entry)
      (own : ∀ e ∈ answers, ∃ call b, e = .answered p.handle call b) :
      Tried p { p with grant := g, state := if accepted then .initialized else .loaded }
        (.starting p.handle true :: (answers ++ [.started p.handle accepted]))

/-- Plugins are started one after the other. -/
inductive AllTried : List (Managed σ) → List (Managed σ) → List Entry → Prop
  | nil : AllTried [] [] []
  | cons {p p' : Managed σ} {ps ps' : List (Managed σ)} {δ δ' : List Entry}
      (one : p.Tried p' δ) (rest : AllTried ps ps' δ') : AllTried (p :: ps) (p' :: ps') (δ ++ δ')

end Managed

/-- `Loads m w attempts m' w'`: the attempts take the manager `m` to `m'`.

* `plugins`: the plugins that came of them are added in order, and are not started.
* `journal`: nothing is noted but how modules were opened, asked and closed. -/
structure Manager.Loads {σ : Type} (m : Manager σ) (w : World σ) (attempts : List (Attempt σ))
    (m' : Manager σ) (w' : World σ) : Prop where
  plugins : ∃ new, m' = { m with plugins := m.plugins ++ new } ∧
    new.map Managed.card = attempts.filterMap Attempt.card? ∧ ∀ p ∈ new, p.state = .loaded
  journal : ∃ δ, w'.journal = w.journal ++ δ ∧ ∀ e ∈ δ, e.OfLoad

/-- The plugin of a card accepted to start, as the journal tells. -/
def Card.accepted (δ : List Entry) (k : Card) : Bool :=
  .started k.handle true ∈ δ

namespace Core

variable {σ : Type}

/-- The candidates that a start finds. -/
def candidates (c : Core σ) (w : World σ) : List String :=
  if w.files.present c.config.plugins.dir then
    w.files.candidates c.config.plugins.dir c.config.plugins.extension
  else []

/-- What is done with the candidates, before the marker is looked at: what became of them, and
which of the plugins refused. -/
def enroll (c : Core σ) (w : World σ) :
    (Manager.Report × List String) × Manager σ × World σ :=
  let (report, m, w) := c.newManager.discover c.config.plugins.dir c.config.plugins.extension w
  let (_, m, w) := m.startAll w
  let (refused, m, w) := m.unloadUnstarted w
  ((report, refused), m, w)

/-- The attempts of a start. -/
def attempts (c : Core σ) (w : World σ) : List (Attempt σ) :=
  c.newManager.attemptsIn c.config.plugins.dir c.config.plugins.extension
    (w.withBus w.bus.subscribe.2)

/-- The cards of the plugins that a start loads. -/
def cards (c : Core σ) (w : World σ) : List Card :=
  (c.attempts w).filterMap Attempt.card?

/-- `Launched c w ps loads starts`: in a start in the world `w`, plugins were loaded and then
started, and now they are `ps`. The one has left `loads` in the journal and the other `starts`,
which tells what each plugin said. -/
structure Launched (c : Core σ) (w : World σ) (ps : List (Managed σ)) (loads starts : List Entry) :
    Prop where
  cards : c.cards w = ps.map Managed.card
  distinct : ((c.cards w).map (·.id)).Nodup
  states : ∀ p ∈ ps, p.state = .initialized ∨ p.state = .loaded
  ofLoad : ∀ e ∈ loads, e.OfLoad
  ofStart : ∀ e ∈ starts, e.OfStart
  told : ∀ accepted, ∀ p ∈ ps,
    (.started p.handle accepted ∈ starts ↔ (p.state = .initialized ↔ accepted = true))

/-- `Begun c w report m δ`: a start in the world `w` has come to the manager `m` and to a
report, and the journal has gained `δ`.

* `tried`: every candidate was tried, in order.
* `failures`: those that failed are listed with their errors, in order.
* `distinct`: no two of the others had the same id.
* `managed`: those that accepted are managed, in load order, and `initialized` says that they
  are started.
* `started`: their ids are listed, as the manager has them.
* `refused`: the ids of those that did not are listed, the last loaded first.
* `refusing`: these have refused, and their modules are closed.
* `unstopped`: no plugin was told to stop. -/
structure Begun (c : Core σ) (w : World σ) (report : Start) (m : Manager σ) (δ : List Entry) :
    Prop where
  tried : (c.attempts w).map (·.path) = c.candidates w
  failures : report.failures = (c.attempts w).filterMap Attempt.failure?
  distinct : ((c.cards w).map (·.id)).Nodup
  managed : m.plugins.map Managed.card = (c.cards w).filter (·.accepted δ)
  initialized : ∀ p ∈ m.plugins, p.state = .initialized
  started : report.started = m.infos.map (·.id)
  refused : report.refused = ((c.cards w).filter (!·.accepted δ)).reverse.map (·.id)
  refusing : ∀ k ∈ c.cards w, k.accepted δ = false →
    .started k.handle false ∈ δ ∧ .closed k.handle ∈ δ
  unstopped : ∀ h, .stopped h ∉ δ

end Core

/-- How an attempt shows in the report of a start. -/
inductive Fate
  | started
  | refused
  | failed
  deriving DecidableEq, Repr

/-- The attempt shows in the report in one way. -/
def Attempt.Shows {σ : Type} (a : Attempt σ) (report : Core.Start) : Fate → Prop
  | .started => ∃ id, a.result = .ok id ∧ id ∈ report.started
  | .refused => ∃ id, a.result = .ok id ∧ id ∈ report.refused
  | .failed => ∃ e, a.result = .error e ∧ ⟨a.path, e⟩ ∈ report.failures

/-! ## Loads -/

namespace Manager.Loads

variable {σ : Type} {m m' m'' : Manager σ} {w w' w'' : World σ} {as bs : List (Attempt σ)}

theorem refl (m : Manager σ) (w : World σ) : Loads m w [] m w :=
  ⟨⟨[], by rw [List.append_nil], rfl, by simp⟩, [], (List.append_nil _).symm, by simp⟩

theorem trans (first : Loads m w as m' w') (rest : Loads m' w' bs m'' w'') :
    Loads m w (as ++ bs) m'' w'' := by
  obtain ⟨⟨new, rfl, cards, idle⟩, δ, journal, loads⟩ := first
  obtain ⟨⟨more, rfl, cards', idle'⟩, δ', journal', loads'⟩ := rest
  refine ⟨⟨new ++ more, by rw [List.append_assoc], ?_, ?_⟩, δ ++ δ', ?_, ?_⟩
  · rw [List.map_append, List.filterMap_append, cards, cards']
  · exact fun p hp => (List.mem_append.mp hp).elim (idle p) (idle' p)
  · rw [journal', journal, List.append_assoc]
  · exact fun e he => (List.mem_append.mp he).elim (loads e) (loads' e)

/-- What the world holds besides the journal does not matter. -/
theorem of_journal (loads : Loads m w as m' w') (same : w''.journal = w'.journal) :
    Loads m w as m' w'' :=
  ⟨loads.plugins, same ▸ loads.journal⟩

end Manager.Loads

section loads

variable {σ : Type}

/-- Nothing is noted of a module that is opened but that it was asked. -/
theorem Attempt.opened_loads (a : Attempt σ) {w : World σ} (asked : Asked a.handle a.opened w) :
    ∃ δ, w.journal = a.world.journal ++ δ ∧ ∀ e ∈ δ, e.OfLoad := by
  obtain ⟨-, δ, journal, questions⟩ := asked
  refine ⟨.opened a.handle :: δ, ?_, fun e he => ?_⟩
  · rw [journal, a.opened_journal, List.append_assoc, List.singleton_append]
  · rcases List.mem_cons.mp he with rfl | he
    · trivial
    · obtain ⟨what, rfl⟩ := questions e he
      trivial

/-- One attempt. -/
theorem Attempt.loads (a : Attempt σ) : a.manager.Loads a.world [a] a.run.2.1 a.run.2.2 := by
  have failed {e : Error} (result : a.result = .error e) : [a].filterMap Attempt.card? = [] := by
    simp [Attempt.card?, result, Except.toOption]
  have came := a.came
  generalize a.run.2.1 = m, a.run.2.2 = w at came
  cases came with
  | refused _ result =>
    exact ⟨⟨[], by rw [List.append_nil], (failed result).symm, by simp⟩, [],
      (List.append_nil _).symm, by simp⟩
  | unopened _ result =>
    exact ⟨⟨[], by rw [List.append_nil], (failed result).symm, by simp⟩, [],
      (List.append_nil _).symm, by simp⟩
  | @rejected _ _ w _ result asked =>
    obtain ⟨δ, journal, loads⟩ := a.opened_loads asked
    refine ⟨⟨[], by rw [List.append_nil], (failed result).symm, by simp⟩,
      δ ++ [.closed a.handle], ?_, fun e he => ?_⟩
    · rw [World.closeHandle, World.note, journal, List.append_assoc]
    · rcases List.mem_append.mp he with he | he
      · exact loads e he
      · rw [List.mem_singleton.mp he]
        trivial
  | @joined t i who w _ _ _ result asked =>
    refine ⟨⟨[_], rfl, ?_, ?_⟩, a.opened_loads asked⟩
    · simp [Attempt.card?, result, Except.toOption, Managed.card, Manager.newcomer]
    · intro p hp
      rw [List.mem_singleton.mp hp]
      rfl

namespace Manager

variable (m : Manager σ) (w : World σ)

theorem loadEach_loads (paths : List String) :
    m.Loads w (m.attempts w paths) (m.loadEach w paths).2.1 (m.loadEach w paths).2.2 := by
  induction paths generalizing m w with
  | nil => exact .refl m w
  | cons path rest ih =>
    have first := (⟨m, w, path⟩ : Attempt σ).loads
    simp only [Attempt.run] at first
    rcases load : m.load path w with ⟨e | id, m', w'⟩
    · rw [load] at first
      have published : m.Loads w _ m' (w'.publish (.pluginError path e.message)) :=
        first.of_journal rfl
      have both := published.trans (ih m' _)
      rw [loadEach_of_error load, attempts, load]
      exact both
    · rw [load] at first
      have both := first.trans (ih m' w')
      rw [loadEach_of_ok load, attempts, load]
      exact both

/-- A discovery takes in what its attempts have loaded. -/
theorem discover_loads (dir extension : String) : m.Loads w (m.attemptsIn dir extension w)
    (m.discover dir extension w).2.1 (m.discover dir extension w).2.2 := by
  unfold discover attemptsIn
  split
  · exact m.loadEach_loads w _
  · exact .refl m w

theorem discover_failures (dir extension : String) : (m.discover dir extension w).1.failures =
    (m.attemptsIn dir extension w).filterMap Attempt.failure? := by
  unfold discover attemptsIn
  split
  · exact m.failures_loadEach w _
  · rfl

end Manager

end loads

/-! ## Starts -/

namespace Managed

variable {σ : Type} {p p' : Managed σ} {ps ps' : List (Managed σ)} {δ : List Entry}

theorem Tried.card (tried : p.Tried p' δ) : p'.card = p.card := by
  cases tried
  rfl

theorem Tried.state (tried : p.Tried p' δ) : p'.state = .initialized ∨ p'.state = .loaded := by
  obtain ⟨accepted, g, answers, own⟩ := tried
  cases accepted with
  | true => exact .inl rfl
  | false => exact .inr rfl

/-- All that is noted of a start is about its plugin. -/
theorem Tried.entries (tried : p.Tried p' δ) : ∀ e ∈ δ, e.OfStart ∧ e.handle = p.handle := by
  obtain ⟨accepted, g, answers, own⟩ := tried
  intro e he
  simp only [List.mem_cons, List.mem_append, List.not_mem_nil, or_false] at he
  rcases he with rfl | he | rfl
  · exact ⟨trivial, rfl⟩
  · obtain ⟨call, b, rfl⟩ := own e he
    exact ⟨trivial, rfl⟩
  · exact ⟨trivial, rfl⟩

/-- What the plugin said in the end is what it has become. -/
theorem Tried.started_mem (tried : p.Tried p' δ) (accepted : Bool) :
    .started p.handle accepted ∈ δ ↔ (p'.state = .initialized ↔ accepted = true) := by
  obtain ⟨answer, g, answers, own⟩ := tried
  have silent : .started p.handle accepted ∉ answers := fun he => by
    obtain ⟨call, b, eq⟩ := own _ he
    cases eq
  cases answer <;> cases accepted <;> simp [silent]

namespace AllTried

theorem cards (tried : AllTried ps ps' δ) : ps'.map card = ps.map card := by
  induction tried with
  | nil => rfl
  | cons one _ ih => rw [List.map_cons, List.map_cons, one.card, ih]

theorem states (tried : AllTried ps ps' δ) :
    ∀ p ∈ ps', p.state = .initialized ∨ p.state = .loaded := by
  induction tried with
  | nil => simp
  | cons one _ ih => exact List.forall_mem_cons.mpr ⟨one.state, ih⟩

theorem entries (tried : AllTried ps ps' δ) :
    ∀ e ∈ δ, e.OfStart ∧ e.handle ∈ ps.map (·.handle) := by
  induction tried with
  | nil => simp
  | cons one _ ih =>
    intro e he
    rcases List.mem_append.mp he with he | he
    · obtain ⟨ofStart, about⟩ := one.entries e he
      exact ⟨ofStart, about ▸ List.mem_cons_self⟩
    · obtain ⟨ofStart, about⟩ := ih e he
      exact ⟨ofStart, List.mem_cons_of_mem _ about⟩

/-- Where no two plugins have one module, the journal tells which of them have accepted. -/
theorem started_mem (tried : AllTried ps ps' δ) (modules : (ps.map (·.handle)).Nodup)
    (accepted : Bool) : ∀ p ∈ ps',
      (.started p.handle accepted ∈ δ ↔ (p.state = .initialized ↔ accepted = true)) := by
  induction tried with
  | nil => simp
  | @cons p p' ps ps' δ δ' one rest ih =>
    obtain ⟨other, modules⟩ := List.nodup_cons.mp modules
    have handle : p'.handle = p.handle := congrArg Card.handle one.card
    have later (accepted : Bool) : .started p.handle accepted ∉ δ' := fun he =>
      other (rest.entries _ he).2
    intro q hq
    rcases List.mem_cons.mp hq with rfl | hq
    · rw [handle, List.mem_append, one.started_mem accepted, or_iff_left (later accepted)]
    · have earlier : .started q.handle accepted ∉ δ := fun he => by
        have same : q.handle = p.handle := (one.entries _ he).2
        have there : q.handle ∈ ps.map (·.handle) := by
          have cards := congrArg (List.map Card.handle) rest.cards
          rw [List.map_map, List.map_map] at cards
          have here : q.handle ∈ ps'.map (Card.handle ∘ card) := List.mem_map_of_mem hq
          rw [cards] at here
          exact here
        rw [same] at there
        exact other there
      rw [List.mem_append, or_iff_right earlier, ih modules q hq]

end AllTried

end Managed

namespace Manager

variable {σ : Type} {m : Manager σ} {p : Managed σ}

/-- A plugin that is loaded is started in its place. -/
theorem start_tried {before after : List (Managed σ)} (here : m.plugins = before ++ p :: after)
    (distinct : m.Distinct) (idle : p.state = .loaded) (w : World σ) :
    ∃ p' δ, p.Tried p' δ ∧ (m.start p.id w).2.1 = { m with plugins := before ++ p' :: after } ∧
      (m.start p.id w).2.2.journal = w.journal ++ δ := by
  obtain ⟨accepted, g, w', ran, started⟩ :=
    p.interface.runStart_eq m.host p.handle p.grant w
  obtain ⟨answers, journal, own, -⟩ := ran.journal
  have noted : (w'.note (.started p.handle accepted)).journal =
      w.journal ++ (.starting p.handle true :: (answers ++ [.started p.handle accepted])) := by
    rw [World.note, journal, World.note]
    simp
  refine ⟨_, _, .ends accepted g answers own, ?_, ?_⟩
  all_goals
    unfold start
    simp only [find?_at here distinct, idle, not_true_eq_false, ↓reduceIte, started, ne_eq]
    cases accepted
  · simp only [Bool.false_eq_true, ↓reduceIte, grantAfter, Option.getD_some]
    rw [← replace_at here distinct (q := { p with grant := g, state := .loaded }) rfl, ← idle]
  · simp only [↓reduceIte, grantAfter, Option.getD_some]
    exact replace_at here distinct (q := { p with grant := g, state := .initialized }) rfl
  · exact noted
  · exact noted

/-- Plugins in a row are started one after the other. -/
theorem startEach_tried (before rest : List (Managed σ)) (here : m.plugins = before ++ rest)
    (distinct : m.Distinct) (idle : ∀ p ∈ rest, p.state = .loaded) (w : World σ) :
    ∃ ps δ, Managed.AllTried rest ps δ ∧
      (m.startEach w (rest.map (·.id))).2.1 = { m with plugins := before ++ ps } ∧
      (m.startEach w (rest.map (·.id))).2.2.journal = w.journal ++ δ := by
  induction rest generalizing m w before with
  | nil =>
    refine ⟨[], [], .nil, ?_, (List.append_nil _).symm⟩
    show m = { m with plugins := before ++ [] }
    rw [← here]
  | cons p rest ih =>
    obtain ⟨p', δ, one, manager, journal⟩ :=
      start_tried here distinct (idle p List.mem_cons_self) w
    have distinct' := distinct_start distinct p.id w
    have place : (m.start p.id w).2.1.plugins = (before ++ [p']) ++ rest := by
      rw [manager, List.append_assoc, List.singleton_append]
    obtain ⟨ps, δ', others, manager', journal'⟩ :=
      ih (before ++ [p']) place distinct' (fun q hq => idle q (List.mem_cons_of_mem p hq))
        (m.start p.id w).2.2
    refine ⟨p' :: ps, δ ++ δ', .cons one others, ?_, ?_⟩
    · show ((m.start p.id w).2.1.startEach (m.start p.id w).2.2 (rest.map (·.id))).2.1 = _
      rw [manager', manager, List.append_assoc, List.singleton_append]
    · show ((m.start p.id w).2.1.startEach (m.start p.id w).2.2 (rest.map (·.id))).2.2.journal = _
      rw [journal', journal, List.append_assoc]

/-- Where no plugin is started yet, all of them are. -/
theorem startAll_tried (distinct : m.Distinct) (idle : ∀ p ∈ m.plugins, p.state = .loaded)
    (w : World σ) : ∃ ps δ, Managed.AllTried m.plugins ps δ ∧
      (m.startAll w).2.1 = { m with plugins := ps } ∧
      (m.startAll w).2.2.journal = w.journal ++ δ := by
  have all : (m.plugins.filter fun p => p.state = .loaded) = m.plugins :=
    List.filter_eq_self.mpr fun p hp => decide_eq_true (idle p hp)
  rw [startAll, all]
  exact startEach_tried [] m.plugins rfl distinct idle w

/-! ## Releases -/

theorem release_idle {host : Host} (idle : p.state ≠ .initialized) (w : World σ) :
    (release host p w).journal = w.journal ++ [.closed p.handle] := by
  rw [release, stopIfStarted, if_neg idle]
  rfl

/-- Plugins that are not started are closed, and nothing else is done to them. -/
theorem releaseEach_idle {host : Host} {ps : List (Managed σ)}
    (idle : ∀ p ∈ ps, p.state ≠ .initialized) (w : World σ) :
    (releaseEach host ps w).journal = w.journal ++ ps.map fun p => .closed p.handle := by
  induction ps generalizing w with
  | nil => exact (List.append_nil _).symm
  | cons p rest ih =>
    have others := ih (fun q hq => idle q (List.mem_cons_of_mem p hq)) (release host p w)
    refine others.trans ?_
    rw [release_idle (idle p List.mem_cons_self), List.append_assoc, List.singleton_append,
      List.map_cons]

/-- What is unloaded because it is not started, and what stays. -/
theorem unloadUnstarted_closes (m : Manager σ) (w : World σ) :
    let idle := (m.plugins.filter fun p => p.state = .loaded).reverse
    (m.unloadUnstarted w).1 = idle.map (·.id) ∧
      (m.unloadUnstarted w).2.1 =
        { m with plugins := m.plugins.filter fun p => p.state ≠ .loaded } ∧
      (m.unloadUnstarted w).2.2.journal = w.journal ++ idle.map fun p => .closed p.handle := by
  refine ⟨rfl, rfl, releaseEach_idle (fun p hp started => ?_) w⟩
  have loaded := of_decide_eq_true (List.mem_filter.mp (List.mem_reverse.mp hp)).2
  rw [started] at loaded
  cases loaded

end Manager

/-! ## The start -/

namespace Core

variable {σ : Type} {c : Core σ} {w : World σ}

theorem attempts_path (c : Core σ) (w : World σ) :
    (c.attempts w).map (·.path) = c.candidates w := by
  unfold attempts Manager.attemptsIn candidates
  rw [World.withBus_files]
  split
  · exact Manager.attempts_path _ _ _
  · rfl

/-- A start subscribes, deals with the candidates, and marks the first run. -/
theorem start_eq_enroll (env : Environment) (stopped : c.running = none) (w : World σ) :
    let enrolled := c.enroll (w.withBus w.bus.subscribe.2)
    let marked := markFirst (c.config.directory env) enrolled.2.2
    c.start env w =
      (.ok { started := enrolled.2.1.infos.map (·.id), refused := enrolled.1.2,
             failures := enrolled.1.1.failures, firstRun := marked.1 },
        { c with running := some ⟨enrolled.2.1, w.bus.subscribe.1⟩ }, marked.2) := by
  unfold start
  rw [stopped]
  rfl

theorem markFirst_journal (dir : String) (w : World σ) :
    (markFirst dir w).2.journal = w.journal := by
  unfold markFirst
  split <;> rfl

/-- The loads and the starts of a start. -/
theorem launched (valid : Session.Valid ⟨c.newManager, w, []⟩) :
    let discovered := c.newManager.discover c.config.plugins.dir c.config.plugins.extension
      (w.withBus w.bus.subscribe.2)
    let started := discovered.2.1.startAll discovered.2.2
    ∃ ps loads starts, c.Launched w ps loads starts ∧ started.2.1.plugins = ps ∧
      started.2.2.journal = w.journal ++ (loads ++ starts) := by
  intro discovered started
  let w₀ := w.withBus w.bus.subscribe.2
  obtain ⟨⟨new, manager, cards, idle⟩, loads, journal, ofLoad⟩ :=
    c.newManager.discover_loads w₀ c.config.plugins.dir c.config.plugins.extension
  have plugins : discovered.2.1.plugins = new := congrArg Manager.plugins manager
  have valid' : Session.Valid ⟨discovered.2.1, discovered.2.2, _⟩ :=
    (Session.discover_steps ⟨c.newManager, w₀, []⟩ _ _).valid
      ⟨valid.ids, valid.modules, valid.managed, valid.noted⟩
  obtain ⟨ps, starts, tried, manager', journal'⟩ :=
    Manager.startAll_tried valid'.ids (by rw [plugins]; exact idle) discovered.2.2
  rw [plugins] at tried
  have ids : (new.map (·.id)).Nodup := plugins ▸ valid'.ids
  have modules : (new.map (·.handle)).Nodup := plugins ▸ valid'.modules
  refine ⟨ps, loads, starts, ⟨?_, ?_, tried.states, ofLoad, ?_, tried.started_mem modules⟩,
    congrArg Manager.plugins manager', ?_⟩
  · exact cards.symm.trans tried.cards.symm
  · have same := congrArg (List.map Card.id) cards
    rw [List.map_map] at same
    exact same ▸ ids
  · exact fun e he => (tried.entries e he).1
  · rw [← List.append_assoc]
    exact journal'.trans (congrArg (· ++ starts) journal)

namespace Launched

variable {ps : List (Managed σ)} {loads starts : List Entry}

/-- The entries that release the plugins which have refused. -/
abbrev endings (ps : List (Managed σ)) : List Entry :=
  (ps.filter fun p => p.state = .loaded).reverse.map fun p => .closed p.handle

/-- What a plugin said shows in the journal of the whole start. -/
theorem told_all (launched : c.Launched w ps loads starts) (accepted : Bool) (p : Managed σ)
    (hp : p ∈ ps) : .started p.handle accepted ∈ loads ++ starts ++ endings ps ↔
      (p.state = .initialized ↔ accepted = true) := by
  have notLoad : .started p.handle accepted ∉ loads := fun he => launched.ofLoad _ he
  have notEnd : .started p.handle accepted ∉ endings ps := fun he => by
    obtain ⟨q, -, eq⟩ := List.mem_map.mp he
    cases eq
  rw [← launched.told accepted p hp, List.mem_append, List.mem_append, or_iff_left notEnd,
    or_iff_right notLoad]

/-- A plugin is accepted exactly if it is not left as it was loaded. -/
theorem accepted_iff (launched : c.Launched w ps loads starts) (p : Managed σ) (hp : p ∈ ps) :
    p.card.accepted (loads ++ starts ++ endings ps) = true ↔ p.state ≠ .loaded := by
  rw [Card.accepted, decide_eq_true_iff]
  refine (launched.told_all true p hp).trans ?_
  rcases launched.states p hp with state | state <;> simp [state]

/-- The plugins that accepted are kept. -/
theorem kept (launched : c.Launched w ps loads starts) :
    (c.cards w).filter (·.accepted (loads ++ starts ++ endings ps)) =
      (ps.filter fun p => p.state ≠ .loaded).map Managed.card := by
  rw [launched.cards, List.filter_map]
  refine congrArg _ (List.filter_congr fun p hp => ?_)
  rw [Function.comp, Bool.eq_iff_iff, launched.accepted_iff p hp, decide_eq_true_iff]

theorem gone (launched : c.Launched w ps loads starts) :
    (c.cards w).filter (!·.accepted (loads ++ starts ++ endings ps)) =
      (ps.filter fun p => p.state = .loaded).map Managed.card := by
  rw [launched.cards, List.filter_map]
  refine congrArg _ (List.filter_congr fun p hp => ?_)
  rw [Function.comp, Bool.eq_iff_iff, Bool.not_eq_true', ← Bool.not_eq_true,
    launched.accepted_iff p hp, not_not, decide_eq_true_iff]

/-- What a start has come to when the plugins that refused are released. -/
theorem begun (launched : c.Launched w ps loads starts) {m : Manager σ}
    (manager : m.plugins = ps.filter fun p => p.state ≠ .loaded) {refused : List String}
    (released : refused = (ps.filter fun p => p.state = .loaded).reverse.map (·.id))
    (firstRun : Bool) : c.Begun w
      ⟨m.infos.map (·.id), refused, (c.attempts w).filterMap Attempt.failure?, firstRun⟩ m
      (loads ++ starts ++ endings ps) where
  tried := c.attempts_path w
  failures := rfl
  distinct := launched.distinct
  managed := (congrArg _ manager).trans launched.kept.symm
  initialized p hp := by
    rw [manager] at hp
    obtain ⟨hp, state⟩ := List.mem_filter.mp hp
    exact (launched.states p hp).resolve_right (of_decide_eq_true state)
  started := rfl
  refused := by
    rw [launched.gone, ← List.map_reverse, List.map_map]
    exact released
  refusing k hk refuses := by
    rw [launched.cards] at hk
    obtain ⟨p, hp, rfl⟩ := List.mem_map.mp hk
    have loaded : p.state = .loaded := by
      rw [← Bool.not_eq_true, launched.accepted_iff p hp] at refuses
      exact not_not.mp refuses
    refine ⟨(launched.told_all false p hp).mpr (by simp [loaded]), List.mem_append_right _ ?_⟩
    exact List.mem_map_of_mem (f := fun p : Managed σ => Entry.closed p.handle)
      (List.mem_reverse.mpr (List.mem_filter.mpr ⟨hp, decide_eq_true loaded⟩))
  unstopped h he := by
    rcases List.mem_append.mp he with he | he
    · rcases List.mem_append.mp he with he | he
      · exact launched.ofLoad _ he
      · exact launched.ofStart _ he
    · obtain ⟨p, -, eq⟩ := List.mem_map.mp he
      cases eq

end Launched

/-- All that is known of a core after its start. -/
theorem start_begun (env : Environment) (stopped : c.running = none)
    (valid : Session.Valid ⟨c.newManager, w, []⟩) :
    ∃ report r δ, (c.start env w).1 = .ok report ∧
      (c.start env w).2.1 = { c with running := some r } ∧
      (c.start env w).2.2.journal = w.journal ++ δ ∧ c.Begun w report r.manager δ := by
  obtain ⟨ps, loads, starts, launched, plugins, journal⟩ := c.launched valid
  obtain ⟨refused, manager, closings⟩ := Manager.unloadUnstarted_closes _ _
  rw [plugins] at refused manager closings
  have failures : (c.enroll (w.withBus w.bus.subscribe.2)).1.1.failures =
      (c.attempts w).filterMap Attempt.failure? := Manager.discover_failures _ _ _ _
  rw [start_eq_enroll env stopped w, failures]
  refine ⟨_, _, loads ++ starts ++ Launched.endings ps, rfl, rfl, ?_,
    launched.begun (congrArg Manager.plugins manager) refused _⟩
  rw [markFirst_journal, ← List.append_assoc, ← journal]
  exact closings

end Core

/-! ## The lists of the report -/

namespace Attempt

variable {σ : Type} {a : Attempt σ} {report : Core.Start} {fate : Fate}

/-- An attempt that failed can show among the failures alone. -/
theorem shows_of_error {e : Error} (result : a.result = .error e) :
    a.Shows report fate ↔ fate = .failed ∧ ⟨a.path, e⟩ ∈ report.failures := by
  cases fate <;> simp [Shows, result]

/-- One that loaded a plugin can show as started and as refused. -/
theorem shows_of_ok {id : String} (result : a.result = .ok id) :
    a.Shows report fate ↔
      (fate = .started ∧ id ∈ report.started) ∨ (fate = .refused ∧ id ∈ report.refused) := by
  cases fate <;> simp [Shows, result]

end Attempt

namespace Core.Begun

variable {σ : Type} {c : Core σ} {w : World σ} {report : Start} {m : Manager σ} {δ : List Entry}

/-- The ids that are listed as started are those of the plugins that accepted. -/
theorem started_eq (begun : c.Begun w report m δ) :
    report.started = ((c.cards w).filter (·.accepted δ)).map (·.id) := by
  rw [begun.started, ← begun.managed, Manager.infos, List.map_map, List.map_map]
  rfl

theorem mem_cards {a : Attempt σ} {id : String} (mem : a ∈ c.attempts w)
    (result : a.result = .ok id) : (⟨id, a.path, a.handle⟩ : Card) ∈ c.cards w := by
  refine List.mem_filterMap.mpr ⟨a, mem, ?_⟩
  rw [Attempt.card?, result]
  rfl

/-- Of a plugin that was loaded, its id is in one of two lists, as it accepted or not. -/
theorem mem_iff (begun : c.Begun w report m δ) {k : Card} (hk : k ∈ c.cards w) :
    (k.id ∈ report.started ↔ k.accepted δ = true) ∧
      (k.id ∈ report.refused ↔ k.accepted δ = false) := by
  have alone (p : Card → Bool) : k.id ∈ ((c.cards w).filter p).map (·.id) ↔ p k = true := by
    constructor
    · intro mem
      obtain ⟨k', hk', same⟩ := List.mem_map.mp mem
      obtain ⟨hk', holds⟩ := List.mem_filter.mp hk'
      rwa [List.inj_on_of_nodup_map begun.distinct hk' hk same] at holds
    · exact fun holds => List.mem_map_of_mem (List.mem_filter.mpr ⟨hk, holds⟩)
  rw [begun.started_eq, begun.refused, List.map_reverse, List.mem_reverse, alone, alone]
  exact ⟨.rfl, by rw [Bool.not_eq_true']⟩

/-- Every attempt shows in one of the three lists, and in no other. -/
theorem shows_once (begun : c.Begun w report m δ) {a : Attempt σ} (mem : a ∈ c.attempts w) :
    ∃! fate, a.Shows report fate := by
  cases result : a.result with
  | error e =>
    have listed : ⟨a.path, e⟩ ∈ report.failures := by
      rw [begun.failures]
      refine List.mem_filterMap.mpr ⟨a, mem, ?_⟩
      rw [Attempt.failure?, result]
    exact ⟨.failed, (Attempt.shows_of_error result).mpr ⟨rfl, listed⟩, fun fate shows =>
      ((Attempt.shows_of_error result).mp shows).1⟩
  | ok id =>
    obtain ⟨started, refused⟩ := begun.mem_iff (mem_cards mem result)
    cases accepted : Card.accepted δ ⟨id, a.path, a.handle⟩ with
    | true =>
      refine ⟨.started, ⟨id, result, started.mpr accepted⟩, fun fate shows => ?_⟩
      rcases (Attempt.shows_of_ok result).mp shows with ⟨rfl, -⟩ | ⟨-, listed⟩
      · rfl
      · rw [refused.mp listed] at accepted
        cases accepted
    | false =>
      refine ⟨.refused, ⟨id, result, refused.mpr accepted⟩, fun fate shows => ?_⟩
      rcases (Attempt.shows_of_ok result).mp shows with ⟨-, listed⟩ | ⟨rfl, -⟩
      · rw [started.mp listed] at accepted
        cases accepted
      · rfl

/-- Nothing else is listed. -/
theorem lengths (begun : c.Begun w report m δ) :
    report.started.length + report.refused.length + report.failures.length =
      (c.candidates w).length := by
  have attempts (as : List (Attempt σ)) :
      (as.filterMap Attempt.card?).length + (as.filterMap Attempt.failure?).length =
        as.length := by
    induction as with
    | nil => rfl
    | cons a as ih =>
      cases result : a.result with
      | error e =>
        rw [List.filterMap_cons_none (by rw [Attempt.card?, result]; rfl),
          List.filterMap_cons_some (by rw [Attempt.failure?, result]), List.length_cons,
          List.length_cons, ← ih, Nat.add_assoc]
      | ok id =>
        rw [List.filterMap_cons_some (by rw [Attempt.card?, result]; rfl),
          List.filterMap_cons_none (by rw [Attempt.failure?, result]), List.length_cons,
          List.length_cons, ← ih, Nat.add_right_comm]
  have split := List.length_eq_length_filter_add (l := c.cards w) (·.accepted δ)
  rw [begun.started_eq, begun.refused, begun.failures, ← begun.tried, List.length_map,
    List.length_map, List.length_reverse, List.length_map, ← attempts, ← split]
  rfl

end Core.Begun

end PluginHost
