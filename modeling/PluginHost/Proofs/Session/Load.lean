import PluginHost.Proofs.Plugin.Identity
import PluginHost.Proofs.Session.Basic

/-!
# What a load comes to

A load goes through its stages until one fails. A module that is opened in it is asked
who it is, and then it either stays open with its plugin taken in, or is closed at once.

Results:
1. `Manager.identify_eq`: what it comes to that a module is asked who it is.
2. `Attempt.came`: all that a load can come to. Nothing else about loads unfolds what a load does.
-/

namespace PluginHost

-- Nothing here depends on how the gate decides, so reduction stops before it.
attribute [local irreducible] Gate.check

/-- `Asked h w w'`: between two worlds a module was asked about itself, and that is all. -/
def Asked {σ : Type} (h : Handle) (w w' : World σ) : Prop :=
  w'.handles = w.handles ∧
    ∃ δ, w'.journal = w.journal ++ δ ∧ ∀ e ∈ δ, ∃ what, e = .asked h what

/-- Who a module says it is, or what it lacks. -/
def Code.told {σ : Type} (code : Code σ) (path : String) (outside : σ) :
    Except Error (Interface σ × Metadata) :=
  match code with
  | .noEntry => .error (.missingEntry path entrySymbol)
  | .noTable => .error (.nullTable path)
  | .table t =>
    match t.toInterface with
    | .error f => .error (.invalidMetadata path f.message)
    | .ok i =>
      match i.told outside with
      | .error f => .error (.invalidMetadata path f.message)
      | .ok who => .ok (i, who)

/-- What a module is asked until it has said who it is, or failed to. -/
def Code.questions {σ : Type} (code : Code σ) (outside : σ) : List Identity :=
  match code with
  | .noEntry => []
  | .noTable => []
  | .table t =>
    match t.toInterface with
    | .error _ => []
    | .ok i => i.questions outside

/-- What a load can come to, stage by stage, with the manager and the world after it. -/
inductive Attempt.Came {σ : Type} (a : Attempt σ) : Manager σ → World σ → Prop
  /-- The trust gate does not let the module in. -/
  | refused {e : Error} (gate : a.check = .error e) (result : a.result = .error e) :
      Came a a.manager a.checked
  /-- The module cannot be opened. -/
  | unopened {t : Trust} {e : Error} (gate : a.check = .ok t) (result : a.result = .error e) :
      Came a a.manager a.checked
  /-- The module is opened and closed again. -/
  | rejected {t : Trust} {e : Error} {w : World σ} (gate : a.check = .ok t)
      (result : a.result = .error e)
      (asked : Asked a.handle a.opened w) :
      Came a a.manager (w.closeHandle a.handle)
  /-- The module is opened and its plugin is taken in. -/
  | joined {t : Trust} {i : Interface σ} {who : Metadata} {w : World σ} (gate : a.check = .ok t)
      (reported : a.reported? = some (i, who)) (vetted : a.manager.vet a.path t who = .ok ())
      (result : a.result = .ok who.id)
      (asked : Asked a.handle a.opened w) :
      Came a
        { a.manager with
          plugins := a.manager.plugins ++
            [Manager.newcomer a.manager.policy a.path t i who a.handle] }
        (w.publish (.pluginLoaded who.id who.version))

namespace Asked

variable {σ : Type} {h : Handle} {w w' : World σ}

theorem refl (h : Handle) (w : World σ) : Asked h w w :=
  ⟨rfl, [], by simp, by simp⟩

theorem inquired (h : Handle) (w : World σ) (questions : List Identity) :
    Asked h w (w.inquired h questions) := by
  refine ⟨rfl, questions.map (.asked h), rfl, fun e he => ?_⟩
  obtain ⟨what, -, rfl⟩ := List.mem_map.mp he
  exact ⟨what, rfl⟩

end Asked

section loads

variable {σ : Type}

theorem Attempt.opened_journal (a : Attempt σ) :
    a.opened.journal = a.world.journal ++ [.opened a.handle] :=
  rfl

/-- What it comes to that a module is asked who it is. -/
theorem Manager.identify_eq (path : String) (code : Code σ) (h : Handle) (w : World σ) :
    identify path code h w =
      (code.told path w.outside, w.inquired h (code.questions w.outside)) := by
  unfold identify Code.told Code.questions
  cases code with
  | noEntry => rw [w.inquired_nil]
  | noTable => rw [w.inquired_nil]
  | table t =>
    cases full : t.toInterface with
    | error f => simp only [full, w.inquired_nil]
    | ok i => cases told : i.told w.outside <;> simp only [full, i.metadata_eq, told]

/-- Of a module that was asked who it is nothing is left but the questions. -/
theorem Manager.inquired_of_identify {path : String} {code : Code σ} {h : Handle} {w w' : World σ}
    {found : Except Error (Interface σ × Metadata)} (asked : identify path code h w = (found, w')) :
    w' = w.inquired h (code.questions w.outside) := by
  rw [identify_eq] at asked
  exact (Prod.mk.inj asked).2.symm

theorem Manager.identify_asked (path : String) (code : Code σ) (h : Handle) (w : World σ) :
    Asked h w (identify path code h w).2 := by
  rw [identify_eq]
  exact .inquired h w (code.questions w.outside)

variable {a : Attempt σ} {t : Trust} {code : Code σ} {e : Error}

/-- A load that the gate refuses comes to nothing but its error. -/
theorem Attempt.run_of_refused (gate : a.check = .error e) :
    a.run = (.error e, a.manager, a.checked) :=
  Manager.load_of_refused (Prod.ext gate rfl)

theorem Attempt.run_of_unopened {reason : String} (gate : a.check = .ok t)
    (fault : a.manager.loader a.path a.checked.files a.checked.outside = .error reason) :
    a.run = (.error (.moduleOpen a.path reason), a.manager, a.checked) :=
  Manager.load_of_unopened (Prod.ext gate rfl) fault

theorem Attempt.run_of_opened (gate : a.check = .ok t)
    (opens : a.manager.loader a.path a.checked.files a.checked.outside = .ok code) :
    a.run = a.manager.take a.path t code a.handle a.opened :=
  Manager.load_of_opened (Prod.ext gate rfl) opens

section take

variable {m : Manager σ} {path : String} {h : Handle} {w w' : World σ} {i : Interface σ}
  {who : Metadata}

theorem Manager.take_of_unknown (asked : identify path code h w = (.error e, w')) :
    m.take path t code h w = (.error e, m, w'.closeHandle h) := by
  rw [take, asked]

theorem Manager.take_of_unwelcome (asked : identify path code h w = (.ok (i, who), w'))
    (fault : m.vet path t who = .error e) :
    m.take path t code h w = (.error e, m, w'.closeHandle h) := by
  simp only [take, asked, fault]

theorem Manager.take_of_welcome (asked : identify path code h w = (.ok (i, who), w'))
    (free : m.vet path t who = .ok ()) :
    m.take path t code h w = (.ok who.id,
      { m with plugins := m.plugins ++ [newcomer m.policy path t i who h] },
      w'.publish (.pluginLoaded who.id who.version)) := by
  simp only [take, asked, free]

end take

/-- What a load does after its module is opened. -/
theorem Attempt.came (a : Attempt σ) : a.Came a.run.2.1 a.run.2.2 := by
  cases gate : a.check with
  | error e =>
    have run := Attempt.run_of_refused gate
    rw [run]
    exact .refused gate (by rw [Attempt.result, run])
  | ok t =>
    cases hcode : a.manager.loader a.path a.checked.files a.checked.outside with
    | error reason =>
      have run := Attempt.run_of_unopened gate hcode
      rw [run]
      exact .unopened gate (by rw [Attempt.result, run])
    | ok code =>
      have run := Attempt.run_of_opened gate hcode
      have asked := Manager.identify_asked a.path code a.handle a.opened
      rcases hwho : Manager.identify a.path code a.handle a.opened with ⟨e | ⟨i, who⟩, w⟩
      · rw [Manager.take_of_unknown hwho] at run
        rw [hwho] at asked
        rw [run]
        exact .rejected gate (by rw [Attempt.result, run]) asked
      have reported : a.reported? = some (i, who) := by
        simp only [Attempt.reported?, hcode, hwho]
        rfl
      rw [hwho] at asked
      cases hvet : a.manager.vet a.path t who with
      | error e =>
        rw [Manager.take_of_unwelcome hwho hvet] at run
        rw [run]
        exact .rejected gate (by rw [Attempt.result, run]) asked
      | ok =>
        rw [Manager.take_of_welcome hwho hvet] at run
        rw [run]
        exact .joined gate reported hvet (by rw [Attempt.result, run]) asked

end loads

end PluginHost
