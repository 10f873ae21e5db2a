import Mathlib.Data.List.Nodup
import PluginHost.Proofs.Session.Actions
import PluginHost.Proofs.Session.Dispatch

/-!
# What a dispatch reports

A dispatch counts the plugins that an event is meant for, which are the started ones without
its source. Whether the event can be handed over at all is decided at each plugin: text with a
NUL in it cannot cross a plugin table, and then no plugin is called, but all of them are counted.

* `Manager.due` are the plugins that an event is meant for, and `Manager.called` those that were
  called, as the journal tells.

Results:
1. `Manager.dispatchTo_fst`: what is reported is how many plugins an event is meant for.
2. `Manager.called_eq`: which plugins are called.
3. `dispatch_counts_due`: when the two are the same, in every session.
4. `unheard_event_counted`: an event that no plugin is called for is counted.
-/

namespace PluginHost

-- Nothing here depends on how paths are taken apart, so reduction stops before it.
attribute [local irreducible] Gate.check Files.present

/-! ## Definitions -/

namespace Manager

variable {σ : Type}

/-- The plugins that an event is meant for: those which are started, but not its source. -/
def due (m : Manager σ) (source : Option String) : List (Managed σ) :=
  m.plugins.filter fun p => p.state = .initialized ∧ source ≠ some p.id

/-- The plugins that were handed an event, as some entries of the journal tell. -/
def called (m : Manager σ) (entries : List Entry) : List (Managed σ) :=
  m.plugins.filter fun p => entries.any fun e => e.isEvent && e.handle = p.handle

/-- What comes of a dispatch in the world `w`.

* `reported`: the number that is reported is that of the plugins which the event is meant for.
* `handed`: the calls that are noted are made to them, once each and in load order, with just
  this text; but if a text has a NUL in it, there are none.
* `called`: so these are the plugins that are called.
* `counted`: the number is that of the plugins which are called, unless a text has a NUL in it
  and the event is meant for somebody. -/
structure Delivers (m : Manager σ) (w : World σ) (source : Option String)
    (type payload : String) : Prop where
  reported : (m.dispatch source type payload w).1 = (m.due source).length
  handed : ∃ δ, (m.dispatch source type payload w).2.2.journal = w.journal ++ δ ∧
    δ.filter Entry.isEvent = deliveries source type payload m.plugins ∧
    m.called δ = (if Terminated.hasNul type ∨ Terminated.hasNul payload then [] else m.due source) ∧
    ((m.dispatch source type payload w).1 = (m.called δ).length ↔
      ¬ (Terminated.hasNul type ∨ Terminated.hasNul payload) ∨ m.due source = [])

end Manager

/-! ## One dispatch -/

namespace Manager

variable {σ : Type} {m : Manager σ} {source : Option String} {type payload : String}
  {δ : List Entry}

/-- What is reported is how many plugins receive the event. -/
theorem dispatchTo_fst (host : Host) (source : Option String) (type payload : String)
    (ps : List (Managed σ)) (w : World σ) :
    (dispatchTo host source type payload ps w).1 = (ps.filter (receives source)).length := by
  induction ps generalizing w with
  | nil => rfl
  | cons p rest ih =>
    by_cases receives : receives source p = true
    · rw [dispatchTo_of_receives receives, ih, List.filter_cons_of_pos receives, List.length_cons]
    · rw [dispatchTo_of_not_receives receives, ih, List.filter_cons_of_neg receives]

theorem due_eq (m : Manager σ) (source : Option String) :
    m.due source = m.plugins.filter (receives source) :=
  List.filter_congr fun p _ => by simp [receives]

theorem deliveries_eq (m : Manager σ) (source : Option String) (type payload : String) :
    deliveries source type payload m.plugins =
      if Terminated.hasNul type ∨ Terminated.hasNul payload then []
      else (m.due source).map fun p => .event p.handle type payload :=
  rfl

/-- Where modules differ, the plugins that are called are those to which a delivery is due. -/
theorem called_eq (modules : (m.plugins.map (·.handle)).Nodup)
    (handed : δ.filter Entry.isEvent = deliveries source type payload m.plugins) :
    m.called δ =
      if Terminated.hasNul type ∨ Terminated.hasNul payload then [] else m.due source := by
  have noted (p : Managed σ) : (δ.any fun e => e.isEvent && e.handle = p.handle) =
      (deliveries source type payload m.plugins).any fun e => e.handle = p.handle := by
    rw [← handed, List.any_filter]
  simp only [called, noted, deliveries_eq]
  by_cases nul : Terminated.hasNul type ∨ Terminated.hasNul payload
  · simp [nul]
  rw [if_neg nul, if_neg nul, due]
  refine List.filter_congr fun p hp => ?_
  rw [Bool.eq_iff_iff, List.any_eq_true, decide_eq_true_eq]
  constructor
  · rintro ⟨e, he, about⟩
    obtain ⟨q, hq, rfl⟩ := List.mem_map.mp he
    obtain ⟨there, receives⟩ := List.mem_filter.mp hq
    -- No other plugin has the module that was called.
    have same : q = p := List.inj_on_of_nodup_map modules there hp (of_decide_eq_true about)
    exact same ▸ by simpa using receives
  · intro receives
    have here : p ∈ m.due source := List.mem_filter.mpr ⟨hp, by simpa using receives⟩
    exact ⟨_, List.mem_map_of_mem here, by simp [Entry.handle]⟩

/-- A dispatch does as it should, where modules differ. -/
theorem delivers (modules : (m.plugins.map (·.handle)).Nodup) (w : World σ)
    (source : Option String) (type payload : String) : m.Delivers w source type payload := by
  have reported : (m.dispatch source type payload w).1 = (m.due source).length := by
    rw [due_eq]
    exact dispatchTo_fst m.host source type payload m.plugins w
  obtain ⟨_, dispatched⟩ := dispatchTo_dispatched m.host source type payload m.plugins w
  obtain ⟨δ, journal, handed⟩ := dispatched.handed
  have called := called_eq modules handed
  refine ⟨reported, δ, journal, handed, called, ?_⟩
  rw [reported, called]
  by_cases nul : Terminated.hasNul type ∨ Terminated.hasNul payload
  · simp [nul]
  · simp [nul]

end Manager

/-- In every session, a dispatch reports how many plugins its event is meant for. These are the
plugins that are called, unless a text of the event has a NUL in it: then none is called, and
the number is right only if the event is meant for nobody. -/
theorem dispatch_counts_due {σ : Type} (m : Manager σ) (w : World σ) (actions : List (Action σ))
    (source : Option String) (type payload : String) :
    let s := (Session.new m w).run actions
    s.manager.Delivers s.world source type payload := by
  intro s
  have valid : s.Valid := (Session.run_steps (Session.new_valid m w) actions).valid
    (Session.new_valid m w)
  exact Manager.delivers valid.modules s.world source type payload

/-- A plugin is started and an event with a NUL in its payload is handed out. The plugin is
counted, and it is not called. -/
theorem unheard_event_counted :
    let s := (Hesitant.fresh .opened {} []).run (Hesitant.actions.take 3)
    let after := s.manager.dispatch none "t" "a\x00b" s.world
    (s.manager.due none).map (·.id) = ["org.hesitant"] ∧ after.1 = 1 ∧
      after.2.2.journal = s.world.journal ∧
      (s.manager.called (after.2.2.journal.drop s.world.journal.length)).length = 0 := by
  decide +kernel

end PluginHost
