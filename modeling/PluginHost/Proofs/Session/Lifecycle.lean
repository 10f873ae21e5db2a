import PluginHost.Proofs.Session.Actions
import PluginHost.Proofs.Session.Phase

/-!
# The life of a module

Between two steps of a session each managed plugin has a module that is open and
either idle or running, as the state of the plugin says, and every other module was
never opened or is closed. Dropping the manager releases the managed plugins, so then
every module that was opened has lived its whole life.

Results:
1. `Step.orderly`: every step keeps the modules in order.
2. `opened_module_lives`: in a session that is over, each module that was opened has
   lived as `Lifecycle` says.
-/

namespace PluginHost

-- Nothing here depends on how the gate decides, so reduction stops before it.
attribute [local irreducible] Gate.check Files.present

/-! ## Definitions -/

/-- The phase of the module of a plugin between two steps. -/
def Managed.phase {σ : Type} (p : Managed σ) : Phase :=
  if p.state = .initialized then .running else .idle

/-- Every module is where it should be between two steps.

* `managed`: the module of a managed plugin is open.
* `gone`: any other module is not. -/
structure Session.Orderly {σ : Type} (s : Session σ) : Prop where
  managed : ∀ p ∈ s.manager.plugins, PluginHost.phase p.handle s.world.journal = some p.phase
  gone : ∀ h, (∀ p ∈ s.manager.plugins, p.handle ≠ h) →
    PluginHost.phase h s.world.journal = some .unopened ∨
      PluginHost.phase h s.world.journal = some .closed

/-! ## Phases of one module -/

section phases

variable {σ : Type} {w w' : World σ} {h k : Handle} {φ ψ : Phase} {p p' : Managed σ}

theorem Managed.phase_isOpen (p : Managed σ) : p.phase.isOpen = true := by
  unfold phase
  split <;> rfl

/-- An entry that is in place moves the module on. -/
theorem phase_note {e : Entry} (hφ : phase h w.journal = some φ) (about : e.handle = h)
    (next : φ.next e = some ψ) : phase h (w.note e).journal = some ψ := by
  rw [World.note, phase_append, hφ, Option.bind_some, Phase.follow_cons, Phase.advance,
    if_pos about, next]
  rfl

/-- What is told of one module leaves the others where they are. -/
theorem Told.phase_eq {j j' : List Entry} (told : Told h j j') (other : k ≠ h) :
    phase k j' = phase k j := by
  obtain ⟨δ, rfl, hδ⟩ := told
  have others : ∀ e ∈ δ, e.handle ≠ k := fun e he same => other (same.symm.trans (hδ e he))
  rw [phase_append]
  cases phase k j with
  | none => rfl
  | some φ => exact Phase.follow_of_others others

theorem Ran.phase {g g' : Grant} (ran : Ran h g w g' w') (hφ : phase h w.journal = some φ)
    (isOpen : φ.isOpen = true) : PluginHost.phase h w'.journal = some φ := by
  obtain ⟨δ, hj, answers, -⟩ := ran.journal
  rw [hj, phase_append, hφ]
  exact Phase.follow_answers isOpen answers

theorem Asked.phase (asked : Asked h w w') (hφ : phase h w.journal = some .idle) :
    PluginHost.phase h w'.journal = some .idle := by
  obtain ⟨-, δ, hj, questions⟩ := asked
  rw [hj, phase_append, hφ]
  exact Phase.follow_asked questions

/-- A turn takes the module of a plugin to the phase of the plugin after it. -/
theorem Turn.phase (turn : Turn p w p' w') (hp : phase p.handle w.journal = some p.phase) :
    PluginHost.phase p'.handle w'.journal = some p'.phase := by
  cases turn with
  | @refuses g w' idle ran =>
    have was : p.phase = .idle := by simp [Managed.phase, idle]
    rw [was] at hp
    have starting := ran.phase (phase_note hp rfl rfl) rfl
    have refused := phase_note (e := .started p.handle false) starting rfl rfl
    simpa [Managed.phase, idle] using refused
  | @accepts g w' idle ran =>
    have was : p.phase = .idle := by simp [Managed.phase, idle]
    rw [was] at hp
    have starting := ran.phase (phase_note hp rfl rfl) rfl
    have accepted := phase_note (e := .started p.handle true) starting rfl rfl
    simpa [Managed.phase] using accepted
  | @hears g w' type payload started ran =>
    have was : p.phase = .running := by simp [Managed.phase, started]
    rw [was] at hp
    have running := ran.phase (phase_note hp rfl rfl) rfl
    simpa [Managed.phase, started] using running
  | uses ran => exact ran.phase hp p.phase_isOpen

/-- The module of a plugin that leaves has lived its life. -/
theorem Leaving.phase (leaving : Leaving p w w') (hp : phase p.handle w.journal = some p.phase) :
    PluginHost.phase p.handle w'.journal = some .closed := by
  cases leaving with
  | idle idle =>
    have was : p.phase = .idle := if_neg idle
    exact phase_note (was ▸ hp) rfl rfl
  | @stopped g w' started ran =>
    have was : p.phase = .running := if_pos started
    have stopped := ran.phase (phase_note (was ▸ hp) rfl rfl) rfl
    exact phase_note stopped rfl rfl

end phases

/-! ## Sessions -/

section sessions

variable {σ : Type} {s s' : Session σ}

/-- Nothing was noted of a module that is opened next. -/
theorem Session.Valid.phase_new (v : s.Valid) (path : String) :
    PluginHost.phase ⟨s.world.handles, path⟩ s.world.journal = some .unopened := by
  refine Phase.follow_of_others fun e he same => ?_
  have below := v.noted e he
  rw [same] at below
  exact Nat.lt_irrefl _ below

theorem Session.Orderly.tries (v : s.Valid) (o : s.Orderly) {path : String} {m : Manager σ}
    {w : World σ} (came : (s.attempt path).Came m w) :
    Session.Orderly ⟨m, w, s.tried ++ [s.attempt path]⟩ := by
  have opened : PluginHost.phase (s.attempt path).handle (s.attempt path).opened.journal =
      some .idle := phase_note (v.phase_new path) rfl rfl
  cases came with
  | refused => exact ⟨o.managed, o.gone⟩
  | unopened => exact ⟨o.managed, o.gone⟩
  | @rejected _ _ w _ _ asked =>
    have told := Attempt.told ((Notes.ofAsked asked).trans (.close _ w))
    constructor
    · intro p hp
      rw [told.phase_eq (v.attempt_ne path hp)]
      exact o.managed p hp
    · intro k hk
      by_cases same : k = (s.attempt path).handle
      · rw [same]
        exact .inr (phase_note (asked.phase opened) rfl rfl)
      · rw [told.phase_eq same]
        exact o.gone k hk
  | @joined t i who w _ _ vetted _ asked =>
    have told : Told (s.attempt path).handle s.world.journal w.journal :=
      Attempt.told (.ofAsked asked)
    constructor
    · refine Manager.forall_joined.mpr ⟨fun p hp => ?_, asked.phase opened⟩
      exact (told.phase_eq (v.attempt_ne path hp)).trans (o.managed p hp)
    · intro k hk
      obtain ⟨others, other⟩ := Manager.forall_joined.mp hk
      have goes := o.gone k others
      rwa [← told.phase_eq (Ne.symm other)] at goes

/-- Every step keeps the modules in order. -/
theorem Step.orderly (v : s.Valid) (step : Step s s') (o : s.Orderly) : s'.Orderly := by
  cases step with
  | tries path came => exact o.tries v came
  | @turns before after p p' w here turn =>
    have apart := Manager.apart here v.modules
    obtain ⟨managed, gone⟩ := o
    rw [here] at managed gone
    obtain ⟨one, others⟩ := Manager.forall_placed.mp managed
    constructor
    · refine Manager.forall_placed.mpr ⟨turn.phase one, fun q hq => ?_⟩
      exact (turn.notes.journal.phase_eq (apart q hq)).trans (others q hq)
    · intro k hk
      obtain ⟨other, rest⟩ := Manager.forall_placed.mp hk
      rw [turn.handle_eq] at other
      have goes := gone k (Manager.forall_placed.mpr ⟨other, rest⟩)
      rwa [← turn.notes.journal.phase_eq other.symm] at goes
  | @leaves before after p w here leaving =>
    have apart := Manager.apart here v.modules
    obtain ⟨managed, gone⟩ := o
    rw [here] at managed gone
    obtain ⟨one, others⟩ := Manager.forall_placed.mp managed
    constructor
    · intro q hq
      have rest := List.mem_append.mp hq
      exact (leaving.notes.journal.phase_eq (apart q rest)).trans (others q rest)
    · intro k hk
      by_cases same : k = p.handle
      · rw [same]
        exact .inr (leaving.phase one)
      · have rest : ∀ q, q ∈ before ∨ q ∈ after → q.handle ≠ k :=
          fun q hq => hk q (List.mem_append.mpr hq)
        have goes := gone k (Manager.forall_placed.mpr ⟨Ne.symm same, rest⟩)
        rwa [← leaving.notes.journal.phase_eq same] at goes
  | @idles w journal handles =>
    obtain ⟨managed, gone⟩ := o
    rw [← journal] at managed gone
    exact ⟨managed, gone⟩

/-- In a session that is over, each module that was opened, however often its path was
opened besides, has lived its whole life: it was closed, and it was started, handed
events and stopped only in between and in this order. -/
theorem opened_module_lives (m : Manager σ) (w : World σ) (actions : List (Action σ)) (h : Handle)
    (opened : .opened h ∈ ((Session.new m w).run actions).finish.journal) :
    Lifecycle h ((Session.new m w).run actions).finish.journal := by
  have keep : ∀ s s' : Session σ, s.Valid → Step s s' → s.Orderly → s'.Orderly :=
    fun _ _ v step o => step.orderly v o
  have start : (Session.new m w).Orderly := ⟨by simp [Session.new], fun _ _ => .inl rfl⟩
  obtain ⟨valid, orderly⟩ := Session.run_induction keep start actions
  -- Dropping the manager takes the same steps, and leaves no plugin whose module is open.
  have ended := Session.steps_induction keep valid (Session.shutdown_steps _) orderly
  rcases ended.gone h (by simp [Session.move, Manager.shutdown]) with never | closed
  · have count := (Tally.ofPhase never).opened
    exact absurd opened (List.count_eq_zero.mp count)
  · exact Lifecycle.ofPhase closed

theorem hesitant_module_lives :
    let s := (Hesitant.fresh .opened {} []).run Hesitant.actions
    .opened ⟨0, "a.so"⟩ ∈ s.finish.journal ∧ .started ⟨0, "a.so"⟩ true ∈ s.finish.journal ∧
      Lifecycle ⟨0, "a.so"⟩ s.finish.journal := by
  intro s
  have opened : .opened ⟨0, "a.so"⟩ ∈ s.finish.journal := by
    decide +kernel
  have started : .started ⟨0, "a.so"⟩ true ∈ s.finish.journal := by
    decide +kernel
  exact ⟨opened, started, opened_module_lives _ _ _ _ opened⟩

end sessions

end PluginHost
