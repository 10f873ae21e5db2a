import Mathlib.Logic.Relation
import PluginHost.Proofs.Plugin.Answers
import PluginHost.Proofs.Session.Load

/-!
# The steps of a session

Every action on a manager is a row of four kinds of steps: a load is tried, one plugin
has its turn, one plugin leaves, or only what lies outside the journal changes. What a
step can do is said here once, and all that holds of every session is shown of the
steps.

Result: `Step.valid`. The ids of managed plugins differ, their modules differ, and a
module that is opened is a new one.
-/

namespace PluginHost

-- Nothing here depends on how the gate decides, so reduction stops before it.
attribute [local irreducible] Gate.check Files.present

/-! ## Definitions -/

/-- The module that an entry is about. -/
def Entry.handle : Entry → Handle
  | .opened h => h
  | .closed h => h
  | .asked h _ => h
  | .starting h _ => h
  | .started h _ => h
  | .event h _ _ => h
  | .stopped h => h
  | .answered h _ _ => h

/-- `Turn p w p' w'`: the plugin `p` has a turn, which takes it to `p'`.

* `refuses` and `accepts`: it is started while it is loaded.
* `hears`: it is handed an event while it is started.
* `uses`: it uses the host, or a holder of its grant asks for more. -/
inductive Turn {σ : Type} (p : Managed σ) (w : World σ) : Managed σ → World σ → Prop
  | refuses {g : Grant} {w' : World σ} (idle : p.state = .loaded)
      (ran : Ran p.handle p.grant (w.note (.starting p.handle true)) g w') :
      Turn p w { p with grant := g } (w'.note (.started p.handle false))
  | accepts {g : Grant} {w' : World σ} (idle : p.state = .loaded)
      (ran : Ran p.handle p.grant (w.note (.starting p.handle true)) g w') :
      Turn p w { p with grant := g, state := .initialized } (w'.note (.started p.handle true))
  | hears {g : Grant} {w' : World σ} {type payload : String} (started : p.state = .initialized)
      (ran : Ran p.handle p.grant (w.note (.event p.handle type payload)) g w') :
      Turn p w { p with grant := g } w'
  | uses {g : Grant} {w' : World σ} (ran : Ran p.handle p.grant w g w') :
      Turn p w { p with grant := g } w'

/-- `Leaving p w w'`: the module of `p` is closed, after the plugin is stopped if it was
started. -/
inductive Leaving {σ : Type} (p : Managed σ) (w : World σ) : World σ → Prop
  | idle (idle : p.state ≠ .initialized) : Leaving p w (w.closeHandle p.handle)
  | stopped {g : Grant} {w' : World σ} (started : p.state = .initialized)
      (ran : Ran p.handle p.grant (w.note (.stopped p.handle)) g w') :
      Leaving p w (w'.closeHandle p.handle)

/-- One step of a session. -/
inductive Step {σ : Type} (s : Session σ) : Session σ → Prop
  | tries (path : String) {m : Manager σ} {w : World σ} (came : (s.attempt path).Came m w) :
      Step s ⟨m, w, s.tried ++ [s.attempt path]⟩
  | turns {before after : List (Managed σ)} {p p' : Managed σ} {w : World σ}
      (here : s.manager.plugins = before ++ p :: after) (turn : Turn p s.world p' w) :
      Step s (s.move ({ s.manager with plugins := before ++ p' :: after }, w))
  | leaves {before after : List (Managed σ)} {p : Managed σ} {w : World σ}
      (here : s.manager.plugins = before ++ p :: after) (leaving : Leaving p s.world w) :
      Step s (s.move ({ s.manager with plugins := before ++ after }, w))
  | idles {w : World σ} (journal : w.journal = s.world.journal)
      (handles : w.handles = s.world.handles) : Step s (s.move (s.manager, w))

/-- Steps one after the other. -/
abbrev Steps {σ : Type} : Session σ → Session σ → Prop :=
  Relation.ReflTransGen Step

/-- The ids and the modules of the managed plugins are all different, and the number of
every module that was ever opened is below the next one. -/
structure Session.Valid {σ : Type} (s : Session σ) : Prop where
  ids : (s.manager.plugins.map (·.id)).Nodup
  modules : (s.manager.plugins.map (·.handle)).Nodup
  managed : ∀ p ∈ s.manager.plugins, p.handle.number < s.world.handles
  noted : ∀ e ∈ s.world.journal, e.handle.number < s.world.handles

/-! ## What a step keeps -/

section keeps

variable {σ : Type} {s s' : Session σ} {p p' : Managed σ} {w w' : World σ}

theorem Turn.id_eq (t : Turn p w p' w') : p'.id = p.id := by
  cases t <;> rfl

theorem Turn.handle_eq (t : Turn p w p' w') : p'.handle = p.handle := by
  cases t <;> rfl

/-- `Told h j j'`: the journal `j'` is `j` with more about the module `h` and no other. -/
def Told (h : Handle) (j j' : List Entry) : Prop :=
  ∃ δ, j' = j ++ δ ∧ ∀ e ∈ δ, e.handle = h

theorem Told.trans {h : Handle} {j j' j'' : List Entry} (a : Told h j j') (b : Told h j' j'') :
    Told h j j'' := by
  obtain ⟨δ, rfl, hδ⟩ := a
  obtain ⟨δ', rfl, hδ'⟩ := b
  refine ⟨δ ++ δ', List.append_assoc .., fun e he => ?_⟩
  exact (List.mem_append.mp he).elim (hδ e) (hδ' e)

/-- What is noted on top of a world, all of it about one module. -/
structure Notes (h : Handle) (w w' : World σ) : Prop where
  handles : w'.handles = w.handles
  journal : Told h w.journal w'.journal

namespace Notes

theorem note {h : Handle} {e : Entry} (about : e.handle = h) : Notes h w (w.note e) :=
  ⟨rfl, [e], rfl, fun _ he => (congrArg Entry.handle (List.mem_singleton.mp he)).trans about⟩

theorem close (h : Handle) (w : World σ) : Notes h w (w.closeHandle h) :=
  .note rfl

theorem trans {h : Handle} {w₁ w₂ w₃ : World σ} (a : Notes h w₁ w₂) (b : Notes h w₂ w₃) :
    Notes h w₁ w₃ :=
  ⟨b.handles.trans a.handles, a.journal.trans b.journal⟩

theorem ofRan {h : Handle} {g g' : Grant} (r : Ran h g w g' w') : Notes h w w' := by
  obtain ⟨δ, hj, hδ, -⟩ := r.journal
  refine ⟨r.handles, δ, hj, fun e he => ?_⟩
  obtain ⟨call, b, rfl⟩ := hδ e he
  rfl

theorem ofAsked {h : Handle} (a : Asked h w w') : Notes h w w' := by
  obtain ⟨hh, δ, hj, hδ⟩ := a
  refine ⟨hh, δ, hj, fun e he => ?_⟩
  obtain ⟨what, rfl⟩ := hδ e he
  rfl

/-- Notes about a known module leave all modules below the next one. -/
theorem noted {h : Handle} (a : Notes h w w') (hh : h.number < w.handles)
    (below : ∀ e ∈ w.journal, e.handle.number < w.handles) :
    ∀ e ∈ w'.journal, e.handle.number < w'.handles := by
  obtain ⟨δ, hj, hδ⟩ := a.journal
  intro e he
  rw [a.handles]
  rw [hj] at he
  rcases List.mem_append.mp he with he | he
  · exact below e he
  · exact (hδ e he) ▸ hh

end Notes

theorem Turn.notes (t : Turn p w p' w') : Notes p.handle w w' := by
  cases t with
  | refuses _ ran => exact ((Notes.note (h := p.handle) rfl).trans (.ofRan ran)).trans (.note rfl)
  | accepts _ ran => exact ((Notes.note (h := p.handle) rfl).trans (.ofRan ran)).trans (.note rfl)
  | hears _ ran => exact (Notes.note (h := p.handle) rfl).trans (.ofRan ran)
  | uses ran => exact .ofRan ran

theorem Leaving.notes (l : Leaving p w w') : Notes p.handle w w' := by
  cases l with
  | idle => exact .close _ _
  | stopped _ ran => exact ((Notes.note (h := p.handle) rfl).trans (.ofRan ran)).trans (.note rfl)

/-- What is noted of a module that has been opened adds to its opening. -/
theorem Attempt.told {a : Attempt σ} (notes : Notes a.handle a.opened w') :
    Told a.handle a.world.journal w'.journal := by
  refine Told.trans ⟨[.opened a.handle], a.opened_journal, fun e he => ?_⟩ notes.journal
  rw [List.mem_singleton.mp he]
  rfl

/-- Once a module is opened, all that is noted of it keeps the modules below the next
one. -/
theorem Session.Valid.opened (v : s.Valid) (path : String)
    (notes : Notes (s.attempt path).handle (s.attempt path).opened w') :
    w'.handles = s.world.handles + 1 ∧ ∀ e ∈ w'.journal, e.handle.number < w'.handles := by
  refine ⟨notes.handles, notes.noted (Nat.lt_succ_self _) ?_⟩
  intro e he
  rw [Attempt.opened_journal] at he
  rcases List.mem_append.mp he with he | he
  · exact Nat.lt_succ_of_lt (v.noted e he)
  · rw [List.mem_singleton.mp he]
    exact Nat.lt_succ_self _

/-- A module that is opened next is none of those that plugins have. -/
theorem Session.Valid.attempt_ne (v : s.Valid) (path : String) (hp : p ∈ s.manager.plugins) :
    p.handle ≠ (s.attempt path).handle := by
  intro same
  have below := v.managed p hp
  rw [same] at below
  exact Nat.lt_irrefl _ below

section places

variable {before after : List (Managed σ)} {P : Managed σ → Prop}

/-- What holds of every plugin holds of one in its place and of the others. -/
theorem Manager.forall_placed :
    (∀ q ∈ before ++ p :: after, P q) ↔ P p ∧ ∀ q, q ∈ before ∨ q ∈ after → P q := by
  constructor
  · intro all
    refine ⟨all p (by simp), fun q hq => all q ?_⟩
    rcases hq with hq | hq <;> simp [hq]
  · rintro ⟨one, others⟩ q hq
    simp only [List.mem_append, List.mem_cons] at hq
    rcases hq with hq | rfl | hq
    · exact others q (.inl hq)
    · exact one
    · exact others q (.inr hq)

/-- What holds of every plugin and of a newcomer. -/
theorem Manager.forall_joined {plugins : List (Managed σ)} :
    (∀ q ∈ plugins ++ [p], P q) ↔ (∀ q ∈ plugins, P q) ∧ P p := by
  rw [List.forall_mem_append, List.forall_mem_singleton]

end places

/-- Where nothing is shared, no other plugin has what one has. -/
theorem Manager.apart {β : Type} {m : Manager σ} {before after : List (Managed σ)}
    (here : m.plugins = before ++ p :: after) {f : Managed σ → β}
    (differ : (m.plugins.map f).Nodup) : ∀ q, q ∈ before ∨ q ∈ after → f q ≠ f p := by
  rw [here, List.map_append, List.map_cons, List.nodup_append] at differ
  obtain ⟨-, tail, differ⟩ := differ
  rintro q (hq | hq) same
  · exact differ (f q) (List.mem_map_of_mem hq) (f p) List.mem_cons_self same
  · exact (List.nodup_cons.mp tail).1 (same ▸ List.mem_map_of_mem hq)

/-- The id of a module that is taken in is free. -/
theorem Manager.free_of_vet {m : Manager σ} {path : String} {t : Trust} {who : Metadata}
    (vetted : m.vet path t who = .ok ()) (hp : p ∈ m.plugins) : p.id ≠ who.id := by
  intro same
  have taken : (m.find? who.id).isSome := by
    rw [Manager.find?, List.find?_isSome]
    exact ⟨p, hp, by simp [same]⟩
  simp [Manager.vet, taken] at vetted

theorem Session.Valid.tries (v : s.Valid) {path : String} {m : Manager σ}
    (came : (s.attempt path).Came m w) : Session.Valid ⟨m, w, s.tried ++ [s.attempt path]⟩ := by
  cases came with
  | refused => exact ⟨v.ids, v.modules, v.managed, v.noted⟩
  | unopened => exact ⟨v.ids, v.modules, v.managed, v.noted⟩
  | rejected _ _ asked =>
    obtain ⟨handles, noted⟩ := v.opened path ((Notes.ofAsked asked).trans (.close _ _))
    refine ⟨v.ids, v.modules, fun q hq => ?_, noted⟩
    rw [handles]
    exact Nat.lt_succ_of_lt (v.managed q hq)
  | @joined t i who w _ _ vetted _ asked =>
    obtain ⟨handles, noted⟩ := v.opened path (.ofAsked asked)
    refine ⟨?_, ?_, ?_, noted⟩
    · simp only [List.map_append, List.map_cons, List.map_nil, List.nodup_append, List.mem_map,
        List.mem_singleton]
      refine ⟨v.ids, by simp, ?_⟩
      rintro _ ⟨q, hq, rfl⟩ _ rfl
      exact Manager.free_of_vet vetted hq
    · simp only [List.map_append, List.map_cons, List.map_nil, List.nodup_append, List.mem_map,
        List.mem_singleton]
      refine ⟨v.modules, by simp, ?_⟩
      rintro _ ⟨q, hq, rfl⟩ _ rfl
      exact v.attempt_ne path hq
    · refine Manager.forall_joined.mpr ⟨fun q hq => ?_, ?_⟩
      · show q.handle.number < w.handles
        rw [handles]
        exact Nat.lt_succ_of_lt (v.managed q hq)
      · show s.world.handles < w.handles
        rw [handles]
        exact Nat.lt_succ_self _

/-- The ids and the modules stay different, and every module that is opened is new. -/
theorem Step.valid (step : Step s s') (v : s.Valid) : s'.Valid := by
  cases step with
  | tries path came => exact v.tries came
  | @turns before after p p' w here turn =>
    obtain ⟨ids, modules, managed, noted⟩ := v
    rw [here] at ids modules managed
    obtain ⟨below, others⟩ := Manager.forall_placed.mp managed
    refine ⟨?_, ?_, ?_, turn.notes.noted below noted⟩
    · simpa [Session.move, turn.id_eq] using ids
    · simpa [Session.move, turn.handle_eq] using modules
    · rw [Session.move, turn.notes.handles]
      exact Manager.forall_placed.mpr ⟨turn.handle_eq ▸ below, others⟩
  | @leaves before after p w here leaving =>
    obtain ⟨ids, modules, managed, noted⟩ := v
    rw [here] at ids modules managed
    obtain ⟨below, others⟩ := Manager.forall_placed.mp managed
    have fewer : (before ++ after).Sublist (before ++ p :: after) :=
      List.Sublist.append_left (List.sublist_cons_self p after) before
    refine ⟨(fewer.map _).nodup ids, (fewer.map _).nodup modules, ?_,
      leaving.notes.noted below noted⟩
    rw [Session.move, leaving.notes.handles]
    exact fun q hq => others q (List.mem_append.mp hq)
  | @idles w journal handles =>
    obtain ⟨ids, modules, managed, noted⟩ := v
    refine ⟨ids, modules, ?_, ?_⟩
    · rw [Session.move, handles]
      exact managed
    · rw [Session.move, handles, journal]
      exact noted

theorem Steps.valid (steps : Steps s s') (v : s.Valid) : s'.Valid := by
  induction steps with
  | refl => exact v
  | tail _ step ih => exact step.valid ih

end keeps

end PluginHost
