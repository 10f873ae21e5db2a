import PluginHost.Proofs.Session.Lifecycle
import PluginHost.Proofs.Trust.Gate

/-!
# Loads that fail

A load may fail at each of its stages. By then the gate may have run a verifier, the module
may be open, and it may have been asked who it is. Whatever the stage, the module is closed
again, and nothing else that a plugin or a receiver could notice has happened.

* `Attempt.Fails` are the stages at which a load fails, with the world after each.
* `Attempt.Undone` is what a failed load leaves as it was.

Results:
1. `Attempt.fails`: a load that fails does so at one of the stages.
2. `Session.run_placed`: at every load of a session, the modules are where they should be.
3. `failed_load_undone`: in every session, each load that fails is undone.
-/

namespace PluginHost

-- Nothing here depends on how the gate decides, so reduction stops before it.
attribute [local irreducible] Gate.check Files.present

/-! ## Definitions -/

/-- The entry is a call of a hook of a plugin. -/
def Entry.isHook : Entry → Bool
  | .starting _ _ => true
  | .started _ _ => true
  | .event _ _ _ => true
  | .stopped _ => true
  | _ => false

namespace Attempt

variable {σ : Type} (a : Attempt σ)

/-- What the module holds, if the gate lets it in and it can be opened. -/
def code? : Option (Code σ) :=
  match a.check with
  | .error _ => none
  | .ok _ => (a.manager.loader a.path a.checked.files a.checked.outside).toOption

/-- The world once the module is opened, asked some questions, and closed again. -/
def visited (questions : List Identity) : World σ :=
  (a.opened.inquired a.handle questions).closeHandle a.handle

/-- The session at the moment of the load. -/
def session : Session σ :=
  { manager := a.manager, world := a.world }

/-- `a.Fails e w`: the load fails with `e`, and leaves the world `w`.

* `refused`: the gate does not let the module in.
* `unopened`: it cannot be opened.
* `unknown`: it has no entry or no table, its table has an empty slot, or what it says of
  itself cannot be used.
* `unwelcome`: its id is taken, or its manifest names another id or version. -/
inductive Fails : Error → World σ → Prop
  | refused {r : Gate.Refusal} (gate : a.check = .error (.verification a.path r.message)) :
      Fails (.verification a.path r.message) a.checked
  | unopened {t : Trust} {reason : String} (gate : a.check = .ok t)
      (fault : a.manager.loader a.path a.checked.files a.checked.outside = .error reason) :
      Fails (.moduleOpen a.path reason) a.checked
  | unknown {code : Code σ} {e : Error} {questions : List Identity} (opens : a.code? = some code)
      (fault : (Manager.identify a.path code a.handle a.opened).1 = .error e) :
      Fails e (a.visited questions)
  | unwelcome {code : Code σ} {t : Trust} {i : Interface σ} {who : Metadata} {e : Error}
      {questions : List Identity} (opens : a.code? = some code)
      (reported : (Manager.identify a.path code a.handle a.opened).1 = .ok (i, who))
      (fault : a.manager.vet a.path t who = .error e) :
      Fails e (a.visited questions)

/-- The load, which has failed with `e`, is undone.

* `manager`: the manager is as it was, with all plugins, their states and grants, and their
  order.
* `world`: so is the world, but for the journal, the number of modules that were ever opened,
  and what the verifier has done to files.
* `silent`: nothing was published.
* `unopened`, `visited`: a module that was not opened is not noted at all, and one that was
  opened was asked about itself and closed.
* `closed`: it was opened and closed once.
* `hooks`: no hook of any plugin was called.
* `managed`: every managed plugin has another module, which is still open.
* `duplicate`: if the id was taken, the plugin that has it is still the same. -/
structure Undone (e : Error) : Prop where
  manager : a.run.2.1 = a.manager
  world : a.run.2.2 =
    { a.checked with journal := a.run.2.2.journal, handles := a.run.2.2.handles }
  silent : a.run.2.2.bus = a.world.bus
  unopened : a.code? = none → a.run.2.2.journal = a.world.journal
  visited : ∀ code, a.code? = some code → ∃ questions : List Identity, a.run.2.2.journal =
    a.world.journal ++ .opened a.handle :: questions.map (.asked a.handle) ++ [.closed a.handle]
  closed : a.code?.isSome = true → a.run.2.2.journal.count (.opened a.handle) = 1 ∧
    a.run.2.2.journal.count (.closed a.handle) = 1
  hooks : ∀ entry : Entry, entry.isHook = true →
    a.run.2.2.journal.count entry = a.world.journal.count entry
  managed : ∀ p ∈ a.manager.plugins, p.handle ≠ a.handle ∧
    .opened p.handle ∈ a.run.2.2.journal ∧ .closed p.handle ∉ a.run.2.2.journal
  duplicate : ∀ id, e = .duplicateId id → ∃ p ∈ a.manager.plugins,
    a.manager.find? id = some p ∧ a.run.2.1.find? id = some p

end Attempt

/-- At every load that was tried, and now, the modules are where they should be. -/
structure Session.Placed {σ : Type} (s : Session σ) : Prop where
  orderly : s.Orderly
  tried : ∀ a ∈ s.tried, a.session.Valid ∧ a.session.Orderly

/-! ## Stages -/

section stages

variable {σ : Type} {a : Attempt σ} {e : Error} {w : World σ}

/-- Whatever a module says of itself, it cannot name an id as taken. -/
theorem Manager.identify_error {path : String} {code : Code σ} {h : Handle}
    (fault : (identify path code h w).1 = .error e) (id : String) : e ≠ .duplicateId id := by
  rintro rfl
  rw [identify_eq] at fault
  cases code with
  | noEntry => cases fault
  | noTable => cases fault
  | table t =>
    cases full : t.toInterface with
    | error f => simp [Code.told, full] at fault
    | ok i => cases told : i.told w.outside <;> simp [Code.told, full, told] at fault

/-- An id that is named as taken has a plugin. -/
theorem Manager.find?_of_vet {m : Manager σ} {path id : String} {t : Trust} {who : Metadata}
    (fault : m.vet path t who = .error (.duplicateId id)) : ∃ p, m.find? id = some p := by
  unfold vet at fault
  split at fault
  · next taken =>
    cases fault
    exact Option.isSome_iff_exists.mp taken
  · split at fault
    · cases fault
    · split at fault <;> cases fault

namespace Attempt

/-- A load that fails does so at one of the stages, and keeps the manager. -/
theorem fails (failed : a.result = .error e) : a.run.2.1 = a.manager ∧ a.Fails e a.run.2.2 := by
  cases gate : a.check with
  | error e' =>
    have run := Attempt.run_of_refused gate
    rw [result, run] at failed
    cases failed
    obtain ⟨r, -, rfl⟩ := Gate.check_error gate
    rw [run]
    exact ⟨rfl, .refused gate⟩
  | ok t =>
    cases hcode : a.manager.loader a.path a.checked.files a.checked.outside with
    | error reason =>
      have run := Attempt.run_of_unopened gate hcode
      rw [result, run] at failed
      cases failed
      rw [run]
      exact ⟨rfl, .unopened gate hcode⟩
    | ok code =>
      have opens : a.code? = some code := by simp [code?, gate, hcode, Except.toOption]
      have run := Attempt.run_of_opened gate hcode
      rcases hwho : Manager.identify a.path code a.handle a.opened with ⟨e' | ⟨i, who⟩, w⟩
      · rw [Manager.take_of_unknown hwho] at run
        rw [result, run] at failed
        cases failed
        rw [run, Manager.inquired_of_identify hwho]
        exact ⟨rfl, .unknown opens (by rw [hwho])⟩
      cases hvet : a.manager.vet a.path t who with
      | error e' =>
        rw [Manager.take_of_unwelcome hwho hvet] at run
        rw [result, run] at failed
        cases failed
        rw [run, Manager.inquired_of_identify hwho]
        exact ⟨rfl, .unwelcome opens (by rw [hwho]) hvet⟩
      | ok =>
        rw [Manager.take_of_welcome hwho hvet] at run
        rw [result, run] at failed
        cases failed

/-- Of a load that fails, either nothing is noted, or that its module was opened, asked some
questions, and closed. -/
theorem Fails.world (fails : a.Fails e w) : (a.code? = none ∧ w = a.checked) ∨
    ∃ code questions, a.code? = some code ∧ w = a.visited questions := by
  cases fails with
  | refused gate => exact .inl ⟨by rw [code?, gate], rfl⟩
  | unopened gate fault => exact .inl ⟨by simp [code?, gate, fault, Except.toOption], rfl⟩
  | unknown opens => exact .inr ⟨_, _, opens, rfl⟩
  | unwelcome opens => exact .inr ⟨_, _, opens, rfl⟩

/-- If a load fails because an id is taken, a plugin has this id. -/
theorem Fails.owner {id : String} (fails : a.Fails (.duplicateId id) w) :
    ∃ p, a.manager.find? id = some p := by
  cases fails with
  | unknown opens fault => exact absurd rfl (Manager.identify_error fault id)
  | unwelcome opens reported fault => exact Manager.find?_of_vet fault

theorem visited_journal (a : Attempt σ) (questions : List Identity) :
    (a.visited questions).journal =
      a.world.journal ++ .opened a.handle :: questions.map (.asked a.handle) ++
        [.closed a.handle] := by
  simp [visited, World.closeHandle, World.note, World.inquired, opened_journal]

/-- A visit is all about one module. -/
theorem visited_told (a : Attempt σ) (questions : List Identity) :
    Told a.handle a.world.journal (a.visited questions).journal :=
  told ((Notes.ofAsked (.inquired _ _ questions)).trans (.close _ _))

/-- No hook is called in a visit. -/
theorem visited_hooks (a : Attempt σ) (questions : List Identity) {entry : Entry}
    (hook : entry.isHook = true) :
    (a.visited questions).journal.count entry = a.world.journal.count entry := by
  have opened : entry ≠ .opened a.handle := by
    rintro rfl
    cases hook
  have closed : entry ≠ .closed a.handle := by
    rintro rfl
    cases hook
  have asked : entry ∉ questions.map (.asked a.handle) := by
    intro there
    obtain ⟨what, -, rfl⟩ := List.mem_map.mp there
    cases hook
  have absent : entry ∉ .opened a.handle :: questions.map (.asked a.handle) ++
      [.closed a.handle] := by
    simpa [opened, closed] using asked
  rw [visited_journal, List.append_assoc, List.count_append, List.count_eq_zero.mpr absent,
    Nat.add_zero]

/-- A module that has been visited is closed for good. -/
theorem visited_phase (valid : a.session.Valid) (questions : List Identity) :
    phase a.handle (a.visited questions).journal = some .closed := by
  have opened : phase a.handle a.opened.journal = some .idle :=
    phase_note (valid.phase_new a.path) rfl rfl
  exact phase_note ((Asked.inquired _ _ questions).phase opened) rfl rfl

end Attempt

end stages

/-! ## Sessions -/

section sessions

variable {σ : Type} {s s' : Session σ} {a : Attempt σ}

theorem Step.placed (v : s.Valid) (step : Step s s') (placed : s.Placed) : s'.Placed := by
  refine ⟨step.orderly v placed.orderly, ?_⟩
  cases step with
  | tries path came =>
    intro a ha
    rcases List.mem_append.mp ha with ha | ha
    · exact placed.tried a ha
    · rw [List.mem_singleton.mp ha]
      exact ⟨⟨v.ids, v.modules, v.managed, v.noted⟩,
        ⟨placed.orderly.managed, placed.orderly.gone⟩⟩
  | turns => exact placed.tried
  | leaves => exact placed.tried
  | idles => exact placed.tried

/-- At every load of a session, the modules are where they should be. -/
theorem Session.run_placed (m : Manager σ) (w : World σ) (actions : List (Action σ)) :
    ((new m w).run actions).Placed := by
  have start : (new m w).Placed := by
    refine ⟨⟨by simp [new], fun _ _ => .inl rfl⟩, by simp [new]⟩
  exact (run_induction (fun _ _ v step placed => step.placed v placed) start actions).2

/-- Where the modules are where they should be, a load that fails is undone. -/
theorem Attempt.undone {e : Error} (valid : a.session.Valid) (orderly : a.session.Orderly)
    (failed : a.result = .error e) : a.Undone e := by
  obtain ⟨manager, fails⟩ := a.fails failed
  have duplicate : ∀ id, e = .duplicateId id → ∃ p ∈ a.manager.plugins,
      a.manager.find? id = some p ∧ a.run.2.1.find? id = some p := by
    rintro id rfl
    obtain ⟨p, found⟩ := fails.owner
    obtain ⟨-, before, after, here⟩ := Manager.place_of_find? found
    exact ⟨p, by simp [here], found, by rw [manager, found]⟩
  -- A managed plugin has another module, so what is told of this one leaves it open.
  have managed {w : World σ} (told : Told a.handle a.world.journal w.journal) :
      ∀ p ∈ a.manager.plugins, p.handle ≠ a.handle ∧ .opened p.handle ∈ w.journal ∧
        .closed p.handle ∉ w.journal := by
    intro p hp
    have other : p.handle ≠ a.handle := valid.attempt_ne a.path hp
    have tally : Tally p.handle p.phase w.journal :=
      .ofPhase ((told.phase_eq other).trans (orderly.managed p hp))
    have opened := tally.opened
    have closed := tally.closed
    rw [if_neg fun same => by simpa [same, Phase.isOpen] using p.phase_isOpen] at opened closed
    exact ⟨other, List.count_pos_iff.mp (by rw [opened]; decide), List.count_eq_zero.mp closed⟩
  rcases fails.world with ⟨never, world⟩ | ⟨code, questions, opens, world⟩
  · refine ⟨manager, by rw [world], by rw [world]; rfl, fun _ => by rw [world]; rfl, ?_, ?_,
      fun _ _ => by rw [world]; rfl, ?_, duplicate⟩
    · simp [never]
    · simp [never]
    · rw [world]
      exact managed ⟨[], (List.append_nil _).symm, List.forall_mem_nil _⟩
  · have tally := Tally.ofPhase (a.visited_phase valid questions)
    refine ⟨manager, by rw [world]; rfl, by rw [world]; rfl, ?_, ?_, ?_, ?_, ?_, duplicate⟩
    · simp [opens]
    · exact fun _ _ => ⟨questions, by rw [world, a.visited_journal]⟩
    · rw [world]
      exact fun _ => ⟨tally.opened, tally.closed⟩
    · rw [world]
      exact fun _ hook => a.visited_hooks questions hook
    · rw [world]
      exact managed (a.visited_told questions)

/-- In every session, each load that fails is undone, whether it is the next one or one that
was tried before, on its own or in a discovery. -/
theorem failed_load_undone (m : Manager σ) (w : World σ) (actions : List (Action σ)) :
    let s := (Session.new m w).run actions
    (∀ path e, (s.manager.load path s.world).1 = .error e → (s.attempt path).Undone e) ∧
    ∀ a ∈ s.tried, ∀ e, a.result = .error e → a.Undone e := by
  intro s
  have every (actions : List (Action σ)) : ∀ a ∈ ((Session.new m w).run actions).tried, ∀ e,
      a.result = .error e → a.Undone e := by
    intro a ha e failed
    obtain ⟨valid, orderly⟩ := (Session.run_placed m w actions).tried a ha
    exact a.undone valid orderly failed
  refine ⟨fun path e failed => ?_, every actions⟩
  have next : s.attempt path ∈ ((Session.new m w).run (actions ++ [.load path])).tried := by
    rw [Session.run_append]
    exact List.mem_append_right _ (List.mem_singleton_self _)
  exact every _ _ next e failed

/-- The module of a plugin that is running is loaded again. -/
theorem second_load_undone :
    let s := (Hesitant.fresh .opened {} []).run (Hesitant.actions.take 4)
    (s.manager.load "a.so" s.world).1 = .error (.duplicateId "org.hesitant") ∧
      (s.attempt "a.so").Undone (.duplicateId "org.hesitant") := by
  intro s
  have failed : (s.manager.load "a.so" s.world).1 = .error (.duplicateId "org.hesitant") := by
    decide +kernel
  exact ⟨failed, (failed_load_undone _ _ _).1 "a.so" _ failed⟩

end sessions

end PluginHost
