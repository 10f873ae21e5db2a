import PluginHost.Plugin.Table
import PluginHost.Proofs.Capability.Mask

/-!
# What a hook leaves behind

A hook acts through the host alone. Whatever it does, the journal gains nothing but
the answers that the host gave it, and its grant gains exactly what it asked for and
was given.

Results:
1. `Hook.run_ran`: a hook that is bound to a grant runs as `Ran` says.
2. `Interface.runStart_eq`, `runStop_ran` and `runEvent_eq`: the same for the three
   hooks of a table, with the entries that stand around the answers.
-/

namespace PluginHost

/-! ## Definitions -/

/-- The masks that the holder of a grant asked for and was given, in order. -/
def given (h : Handle) (journal : List Entry) : List Mask :=
  journal.filterMap fun e =>
    match e with
    | .answered k (.request m) true => if k = h then some m else none
    | _ => none

/-- `Ran h g w g' w'`: from the grant `g` and the world `w`, something that acted for
the module `h` came to the grant `g'` and the world `w'`, and only by calls of the
host. -/
structure Ran {σ : Type} (h : Handle) (g : Grant) (w : World σ) (g' : Grant) (w' : World σ) :
    Prop where
  plugin : g'.plugin = g.plugin
  ceiling : g'.ceiling = g.ceiling
  handles : w'.handles = w.handles
  journal : ∃ δ, w'.journal = w.journal ++ δ ∧ (∀ e ∈ δ, ∃ call b, e = .answered h call b) ∧
    (∀ m ∈ given h δ, g.accepts m = true) ∧ g'.granted = g.granted ||| Mask.union (given h δ)

/-! ## Helpers -/

@[simp] theorem given_nil (h : Handle) : given h [] = [] := rfl

theorem given_append (h : Handle) (j k : List Entry) :
    given h (j ++ k) = given h j ++ given h k := by
  simp [given]

namespace Ran

variable {σ : Type} {h : Handle} {g g₁ g₂ : Grant} {w w₁ w₂ : World σ}

theorem refl (h : Handle) (g : Grant) (w : World σ) : Ran h g w g w :=
  ⟨rfl, rfl, rfl, [], by simp, by simp, by simp, by simp [Mask.union]⟩

theorem trans (a : Ran h g w g₁ w₁) (b : Ran h g₁ w₁ g₂ w₂) : Ran h g w g₂ w₂ := by
  obtain ⟨δ, hj, hans, hacc, hg⟩ := a.journal
  obtain ⟨δ', hj', hans', hacc', hg'⟩ := b.journal
  refine ⟨b.plugin.trans a.plugin, b.ceiling.trans a.ceiling, b.handles.trans a.handles,
    δ ++ δ', ?_, ?_, ?_, ?_⟩
  · rw [hj', hj, List.append_assoc]
  · intro e he
    rcases List.mem_append.mp he with he | he
    · exact hans e he
    · exact hans' e he
  · intro m hm
    rw [given_append] at hm
    rcases List.mem_append.mp hm with hm | hm
    · exact hacc m hm
    · exact (Grant.accepts_congr a.ceiling m) ▸ hacc' m hm
  · rw [hg', hg, given_append, Mask.union_append, BitVec.or_assoc]

/-- A change of the world that the journal and the handles do not see. -/
theorem silent (hj : w₁.journal = w.journal) (hh : w₁.handles = w.handles) : Ran h g w g w₁ :=
  ⟨rfl, rfl, hh, [], by simp [hj], by simp, by simp, by simp [Mask.union]⟩

/-- An answer that leaves the grant as it is. -/
theorem answered {call : Call} {b : Bool} (hj : w₁.journal = w.journal ++ [.answered h call b])
    (hh : w₁.handles = w.handles) (hn : given h [.answered h call b] = []) : Ran h g w g w₁ :=
  ⟨rfl, rfl, hh, _, hj, fun _ he => ⟨call, b, List.mem_singleton.mp he⟩, by simp [hn],
    by simp [hn, Mask.union]⟩

/-- A request with its answer. -/
theorem requested (g : Grant) (m : Mask) (hj : w₁.journal =
      w.journal ++ [.answered h (.request m) (g.request m).1]) (hh : w₁.handles = w.handles) :
    Ran h g w (g.request m).2 w₁ := by
  refine ⟨g.request_plugin m, g.request_ceiling m, hh, _, hj,
    fun _ he => ⟨_, _, List.mem_singleton.mp he⟩, ?_, ?_⟩
  all_goals
    cases hb : g.accepts m with
    | true => simp [given, Mask.union, hb, Grant.request_accepted hb]
    | false => simp [given, Mask.union, Grant.request_denied hb]

end Ran

/-! ## Hooks -/

section hooks

variable {σ α : Type}

/-- One call of a plugin that is bound to a grant. -/
theorem Host.answer_ran (host : Host) (h : Handle) (g : Grant) (w : World σ) (call : Call) :
    ∃ g', (host.answer (some g) w call).2.1 = some g' ∧
      Ran h g w g' (Hook.noteAnswer (host.answer (some g) w call).2.2 h call
        (host.answer (some g) w call).1) := by
  cases call with
  | has m => exact ⟨g, rfl, .answered rfl rfl rfl⟩
  | request m => exact ⟨_, rfl, .requested g m rfl rfl⟩
  | service kind => exact ⟨g, rfl, .answered rfl rfl rfl⟩
  | log level message => exact ⟨g, rfl, .silent rfl rfl⟩
  | emit type payload =>
    refine ⟨g, rfl, .silent ?_ ?_⟩
    all_goals
      simp only [Host.answer, Hook.noteAnswer, Hook.isQuestion, Option.elim, World.emit]
      cases Terminated.lossy type <;> rfl

/-- A hook that is bound to a grant acts for its module, and by calls alone. -/
theorem Hook.run_ran (host : Host) (h : Handle) (t : Hook σ α) (g : Grant) (w : World σ) :
    ∃ g', (t.run host h (some g) w).2.1 = some g' ∧ Ran h g w g' (t.run host h (some g) w).2.2 := by
  induction t generalizing g w with
  | done a => exact ⟨g, rfl, .refl h g w⟩
  | ask call next ih =>
    obtain ⟨g₁, hg₁, first⟩ := host.answer_ran h g w call
    obtain ⟨g₂, hg₂, rest⟩ := ih (host.answer (some g) w call).1 g₁
      (noteAnswer (host.answer (some g) w call).2.2 h call (host.answer (some g) w call).1)
    simp only [Hook.run, hg₁]
    exact ⟨g₂, hg₂, first.trans rest⟩
  | read next ih => exact ih w.outside g w
  | write s next ih =>
    obtain ⟨g', hg', rest⟩ := ih g { w with outside := s }
    have written : Ran h g w g { w with outside := s } := .silent rfl rfl
    exact ⟨g', hg', written.trans rest⟩

namespace Interface

variable (i : Interface σ) (host : Host) (h : Handle) (g : Grant) (w : World σ)

/-- A start stands between two entries. -/
theorem runStart_eq : ∃ accepted g' w', Ran h g (w.note (.starting h true)) g' w' ∧
    i.runStart host h (some g) w = (accepted, some g', w'.note (.started h accepted)) := by
  obtain ⟨g', hg', ran⟩ := (i.start true).run_ran host h g (w.note (.starting h true))
  refine ⟨((i.start true).run host h (some g) (w.note (.starting h true))).1, g', _, ran, ?_⟩
  simp only [runStart, Option.isSome_some, hg']

/-- A stop follows its entry. -/
theorem runStop_ran : ∃ g', Ran h g (w.note (.stopped h)) g' (i.runStop host h (some g) w).2 := by
  obtain ⟨g', _, ran⟩ := i.stop.run_ran host h g (w.note (.stopped h))
  exact ⟨g', ran⟩

/-- An event is handed over after its entry, or not at all. -/
theorem runEvent_eq (type payload : String) : ∃ g' w',
    i.runEvent host h type payload (some g) w = (some g', w') ∧
      (Ran h g w g' w' ∨ Ran h g (w.note (.event h type payload)) g' w') := by
  unfold runEvent
  split
  · next t p _ _ =>
    obtain ⟨g', hg', ran⟩ :=
      (i.event (some t) (some p)).run_ran host h g (w.note (.event h type payload))
    exact ⟨g', _, Prod.ext hg' rfl, .inr ran⟩
  · exact ⟨g, w, rfl, .inl (.refl h g w)⟩

end Interface

end hooks

end PluginHost
