import Mathlib.Data.List.Induction
import PluginHost.Proofs.Session.Step

/-!
# Actions as steps

Each action goes through the managed plugins in an order of its own: starts and events
from the first to the last, releases from the last to the first. Here each of them is
taken apart into the steps of a session.

Results:
1. `Session.act_steps`: every action is a row of steps.
2. `Session.run_induction`: what a new session has and every step keeps, every session
   has.
-/

namespace PluginHost

-- Nothing here depends on how paths are taken apart, so reduction stops before it.
attribute [local irreducible] Gate.check Files.present

/-! ## Plugins in their places -/

namespace Manager

variable {σ : Type} {m : Manager σ} {before after : List (Managed σ)} {p q : Managed σ}

theorem find?_at (here : m.plugins = before ++ p :: after)
    (ids : (m.plugins.map (·.id)).Nodup) : m.find? p.id = some p := by
  rw [find?, List.find?_eq_some_iff_append]
  refine ⟨by simp, before, after, here, fun q hq => ?_⟩
  simp [apart here ids q (.inl hq)]

/-- A plugin takes the place of the one with its id. -/
theorem replace_at (here : m.plugins = before ++ p :: after)
    (ids : (m.plugins.map (·.id)).Nodup) (same : q.id = p.id) :
    m.replace q = { m with plugins := before ++ q :: after } := by
  have kept (l : List (Managed σ)) (hl : ∀ r ∈ l, r.id ≠ p.id) :
      l.map (fun r => if r.id = q.id then q else r) = l := by
    refine (List.map_congr_left fun r hr => ?_).trans (List.map_id l)
    simp [same, hl r hr]
  have differ := apart here ids
  rw [replace, here, List.map_append, List.map_cons, kept before fun r hr => differ r (.inl hr),
    kept after fun r hr => differ r (.inr hr), if_pos same.symm]

/-- Without a plugin the others stay in their places. -/
theorem without_at (here : m.plugins = before ++ p :: after)
    (ids : (m.plugins.map (·.id)).Nodup) :
    m.without p.id = { m with plugins := before ++ after } := by
  have kept (l : List (Managed σ)) (hl : ∀ r ∈ l, r.id ≠ p.id) :
      l.filter (fun r => r.id ≠ p.id) = l :=
    List.filter_eq_self.mpr fun r hr => by simp [hl r hr]
  have differ := apart here ids
  rw [without, here, List.filter_append, List.filter_cons_of_neg (by simp),
    kept before fun r hr => differ r (.inl hr), kept after fun r hr => differ r (.inr hr)]

theorem find?_eq_none_iff {id : String} : m.find? id = none ↔ id ∉ m.plugins.map (·.id) := by
  simp [find?, List.find?_eq_none]

/-- A plugin that is found has a place. -/
theorem place_of_find? {id : String} (found : m.find? id = some p) :
    p.id = id ∧ ∃ before after, m.plugins = before ++ p :: after := by
  obtain ⟨same, before, after, here, -⟩ := List.find?_eq_some_iff_append.mp found
  exact ⟨by simpa using same, before, after, here⟩

theorem place_of_handle {h : Handle} (found : m.ofHandle? h = some p) :
    p.handle = h ∧ ∃ before after, m.plugins = before ++ p :: after := by
  obtain ⟨same, before, after, here, -⟩ := List.find?_eq_some_iff_append.mp found
  exact ⟨by simpa using same, before, after, here⟩

end Manager

/-! ## Actions as steps -/

namespace Session

variable {σ : Type} {s : Session σ}

theorem load_step (s : Session σ) (path : String) : Step s (s.load path) :=
  .tries path (s.attempt path).came

theorem publish_step (s : Session σ) (e : Event) : Step s (s.move (s.manager, s.world.publish e)) :=
  .idles rfl rfl

theorem start_steps (v : s.Valid) (id : String) :
    Steps s (s.move (s.manager.start id s.world).2) := by
  unfold Manager.start
  cases found : s.manager.find? id with
  | none => exact .refl
  | some p =>
    obtain ⟨rfl, before, after, here⟩ := Manager.place_of_find? found
    by_cases idle : p.state = .loaded
    · obtain ⟨accepted, g, w, ran, started⟩ :=
        p.interface.runStart_eq s.manager.host p.handle p.grant s.world
      simp only [idle, not_true_eq_false, ↓reduceIte, started, ne_eq]
      cases accepted with
      | true =>
        have turn : Step s _ := .turns here (.accepts idle ran)
        have same := Manager.replace_at here v.ids
          (q := { p with grant := g, state := .initialized }) rfl
        simp only [↓reduceIte, Manager.grantAfter, Option.getD_some, same]
        exact .tail (.single turn) (publish_step _ (.pluginInitialized p.id))
      | false =>
        have turn : Step s _ := .turns here (.refuses idle ran)
        have same := Manager.replace_at here v.ids (q := { p with grant := g }) rfl
        simp only [Bool.false_eq_true, ↓reduceIte, Manager.grantAfter, Option.getD_some, ← idle,
          same]
        exact .tail (.single turn) (publish_step _ (.pluginError p.id Manager.refusal))
    · simp only [idle, not_false_eq_true, ↓reduceIte, ne_eq]
      exact .refl

theorem startEach_steps (v : s.Valid) (ids : List String) :
    Steps s (s.move (s.manager.startEach s.world ids).2) := by
  induction ids generalizing s with
  | nil => exact .refl
  | cons id rest ih =>
    have first := start_steps v id
    exact first.trans (ih (first.valid v))

/-- The plugins that come after those which have had their event. -/
theorem dispatchTo_steps (source : Option String) (type payload : String)
    (before rest : List (Managed σ)) (here : s.manager.plugins = before ++ rest) :
    let after := Manager.dispatchTo s.manager.host source type payload rest s.world
    Steps s (s.move ({ s.manager with plugins := before ++ after.2.1 }, after.2.2)) := by
  induction rest generalizing s before with
  | nil =>
    simp only [Manager.dispatchTo, ← here]
    exact .refl
  | cons p rest ih =>
    unfold Manager.dispatchTo
    split
    · next receives =>
      have started : p.state = .initialized := by
        simp only [Manager.receives, Bool.and_eq_true, decide_eq_true_eq] at receives
        exact receives.1
      obtain ⟨g, w, event, ran⟩ :=
        p.interface.runEvent_eq s.manager.host p.handle p.grant s.world type payload
      have turn : Step s (s.move
          ({ s.manager with plugins := before ++ { p with grant := g } :: rest }, w)) := by
        rcases ran with ran | ran
        · exact .turns here (.uses ran)
        · exact .turns here (.hears started ran)
      have others := ih (s := s.move
          ({ s.manager with plugins := before ++ { p with grant := g } :: rest }, w))
        (before ++ [{ p with grant := g }]) (by simp [move])
      simp only [List.append_assoc, List.singleton_append] at others
      simp only [event, Manager.grantAfter, Option.getD_some]
      exact .head turn others
    · have others := ih (s := s) (before ++ [p]) (by simp [here])
      simpa using others

theorem dispatch_steps (s : Session σ) (source : Option String) (type payload : String) :
    Steps s (s.move (s.manager.dispatch source type payload s.world).2) :=
  dispatchTo_steps source type payload [] s.manager.plugins rfl

/-- A plugin that is released leaves, and its end is published. -/
theorem release_steps {before after : List (Managed σ)} {p : Managed σ}
    (here : s.manager.plugins = before ++ p :: after) :
    Steps s (s.move ({ s.manager with plugins := before ++ after },
      Manager.release s.manager.host p s.world)) := by
  have leaving : Leaving p s.world
      ((Manager.stopIfStarted s.manager.host p s.world).closeHandle p.handle) := by
    unfold Manager.stopIfStarted
    split
    · next started =>
      obtain ⟨g, ran⟩ := p.interface.runStop_ran s.manager.host p.handle p.grant s.world
      exact .stopped started ran
    · next idle => exact .idle idle
  exact .tail (.single (.leaves here leaving)) (publish_step _ (.pluginUnloaded p.id))

theorem unload_steps (v : s.Valid) (id : String) :
    Steps s (s.move (s.manager.unload id s.world).2) := by
  unfold Manager.unload
  cases found : s.manager.find? id with
  | none => exact .refl
  | some p =>
    obtain ⟨rfl, before, after, here⟩ := Manager.place_of_find? found
    simp only [Manager.without_at here v.ids]
    exact release_steps here

/-- Of the plugins in front of `kept`, those that satisfy `goes` are released from the
last to the first, and the others stay. -/
theorem releaseEach_steps (goes : Managed σ → Bool) (front kept : List (Managed σ))
    (here : s.manager.plugins = front ++ kept) :
    Steps s (s.move ({ s.manager with plugins := front.filter (fun p => !goes p) ++ kept },
      Manager.releaseEach s.manager.host (front.filter goes).reverse s.world)) := by
  -- The last plugin goes first, so the induction is from the end of the row.
  induction front using List.reverseRecOn generalizing s kept with
  | nil =>
    rw [List.nil_append] at here
    simp only [List.filter_nil, List.reverse_nil, Manager.releaseEach, List.foldl_nil,
      List.nil_append, ← here]
    exact .refl
  | append_singleton front p ih =>
    cases hp : goes p with
    | true =>
      have place : s.manager.plugins = front ++ p :: kept := by simp [here]
      have first := release_steps place
      have others := ih (s := s.move ({ s.manager with plugins := front ++ kept },
        Manager.release s.manager.host p s.world)) kept rfl
      simpa [hp, List.filter_append, Manager.releaseEach, move] using first.trans others
    | false =>
      have others := ih (s := s) (p :: kept) (by simp [here])
      simpa [hp, List.filter_append] using others

theorem unloadUnstarted_steps (s : Session σ) :
    Steps s (s.move (s.manager.unloadUnstarted s.world).2) := by
  have steps := releaseEach_steps (s := s) (fun p => decide (p.state = .loaded))
    s.manager.plugins [] (by simp)
  simpa [Manager.unloadUnstarted] using steps

theorem shutdown_steps (s : Session σ) : Steps s (s.move (s.manager.shutdown s.world)) := by
  have steps := releaseEach_steps (s := s) (fun _ => true) s.manager.plugins [] (by simp)
  have all : (s.manager.plugins.filter fun _ => true) = s.manager.plugins :=
    List.filter_eq_self.mpr (by simp)
  have none : (s.manager.plugins.filter fun _ => false) = [] :=
    List.filter_eq_nil_iff.mpr (by simp)
  simpa [Manager.shutdown, all, none] using steps

/-- Candidates that are loaded one after the other are all kept among the attempts. -/
theorem loadEach_steps (s : Session σ) (paths : List String) :
    Steps s { s.move (s.manager.loadEach s.world paths).2 with
      tried := s.tried ++ s.manager.attempts s.world paths } := by
  induction paths generalizing s with
  | nil =>
    simp only [Manager.loadEach_nil, Manager.attempts, List.append_nil]
    exact .refl
  | cons path rest ih =>
    have first : Step s (s.load path) := load_step s path
    rcases hload : s.manager.load path s.world with ⟨e | id, m, w⟩
    · have failed : Step (s.load path) ((s.load path).move
          ((s.load path).manager, (s.load path).world.publish (.pluginError path e.message))) :=
        publish_step _ _
      have others := ih ((s.load path).move
        ((s.load path).manager, (s.load path).world.publish (.pluginError path e.message)))
      simp only [Manager.loadEach_of_error hload, Manager.attempts, hload]
      simp only [Session.load, Session.attempt, Attempt.run, Session.move, hload,
        List.append_assoc, List.singleton_append] at first failed others
      exact .head first (.head failed others)
    · have others := ih (s.load path)
      simp only [Manager.loadEach_of_ok hload, Manager.attempts, hload]
      simp only [Session.load, Session.attempt, Attempt.run, Session.move, hload,
        List.append_assoc, List.singleton_append] at first others
      exact .head first others

theorem discover_steps (s : Session σ) (dir extension : String) :
    Steps s (s.act (.discover dir extension)) := by
  simp only [act, Manager.discover, Manager.attemptsIn]
  split
  · exact loadEach_steps s _
  · rw [List.append_nil]
    exact .refl

theorem use_steps (v : s.Valid) {p : Managed σ} {before after : List (Managed σ)}
    (here : s.manager.plugins = before ++ p :: after) (t : Hook σ Unit) : Steps s (s.use p t) := by
  obtain ⟨g, hg, ran⟩ := t.run_ran s.manager.host p.handle p.grant s.world
  have turn : Step s _ := .turns here (.uses ran)
  have same := Manager.replace_at here v.ids (q := { p with grant := g }) rfl
  simp only [use, hg, Manager.grantAfter, Option.getD_some, same]
  exact .single turn

theorem request_steps (v : s.Valid) {p : Managed σ} {before after : List (Managed σ)}
    (here : s.manager.plugins = before ++ p :: after) (m : Mask) : Steps s (s.request p m) := by
  have ran : Ran p.handle p.grant s.world (p.grant.request m).2
      (s.world.note (.answered p.handle (.request m) (p.grant.request m).1)) :=
    .requested p.grant m rfl rfl
  have turn : Step s _ := .turns here (.uses ran)
  have same := Manager.replace_at here v.ids (q := { p with grant := (p.grant.request m).2 }) rfl
  simp only [request, Manager.request, Manager.find?_at here v.ids, same, Option.getD_some]
  exact .single turn

/-- Every action is a row of steps. -/
theorem act_steps (v : s.Valid) (a : Action σ) : Steps s (s.act a) := by
  cases a with
  | load path => exact .single (load_step s path)
  | discover dir extension => exact discover_steps s dir extension
  | start id => exact start_steps v id
  | startAll => exact startEach_steps v _
  | dispatch source type payload => exact dispatch_steps s source type payload
  | unload id => exact unload_steps v id
  | unloadUnstarted => exact unloadUnstarted_steps s
  | shutdown => exact shutdown_steps s
  | use h t =>
    cases found : s.manager.ofHandle? h with
    | none => simpa [act, found] using Relation.ReflTransGen.refl
    | some p =>
      obtain ⟨-, before, after, here⟩ := Manager.place_of_handle found
      simpa [act, found] using use_steps v here t
  | request h m =>
    cases found : s.manager.ofHandle? h with
    | none => simpa [act, found] using Relation.ReflTransGen.refl
    | some p =>
      obtain ⟨-, before, after, here⟩ := Manager.place_of_handle found
      simpa [act, found] using request_steps v here m
  | elapse files bus now outside => exact .single (.idles rfl rfl)

theorem new_valid (m : Manager σ) (w : World σ) : (new m w).Valid := by
  constructor <;> simp [new]

theorem run_steps (v : s.Valid) (actions : List (Action σ)) : Steps s (s.run actions) := by
  induction actions generalizing s with
  | nil => exact .refl
  | cons a rest ih =>
    have first := act_steps v a
    exact first.trans (ih (first.valid v))

/-- What every step keeps, a row of steps keeps. -/
theorem steps_induction {P : Session σ → Prop}
    (keep : ∀ s s' : Session σ, s.Valid → Step s s' → P s → P s') {s' : Session σ}
    (v : s.Valid) (steps : Steps s s') (start : P s) : P s' := by
  induction steps with
  | refl => exact start
  | tail before step ih => exact keep _ _ (Steps.valid before v) step ih

/-- What a new session has and every step keeps, every session has, and also the
session whose manager is dropped. -/
theorem run_induction {P : Session σ → Prop}
    (keep : ∀ s s' : Session σ, s.Valid → Step s s' → P s → P s') {m : Manager σ} {w : World σ}
    (start : P (new m w)) (actions : List (Action σ)) :
    ((new m w).run actions).Valid ∧ P ((new m w).run actions) := by
  have steps := run_steps (new_valid m w) actions
  exact ⟨steps.valid (new_valid m w), steps_induction keep (new_valid m w) steps start⟩

end Session

end PluginHost
