import PluginHost.Config.Loader

/-!
# Loaded configurations

A configuration that has been loaded is kept while its file and the environment change. At
each point of this it is known what is kept and why:

* loading gives a configuration without errors, or fails;
* loading again does what loading from the same path would do, or leaves everything as it was;
* changes by hand are not checked, and none of them outlives loading again.

Loading and loading again part where there is no file: the one gives the default
configuration, and the other fails. So what was never in a file is never loaded again.

Results:
1. `Config.checked_eq_ok_iff`: what is checked is usable.
2. `Snapshot.load_eq_ok_iff` and `Snapshot.fresh_eq_ok_iff`: when loading succeeds, and with
   what; `Snapshot.fresh_of_present`: on a file, the two are the same.
3. `Desk.act_usable` and `Desk.act_loads`: what one deed keeps and what it establishes.
4. `loading_is_disciplined`: what holds at any point of any sequence of deeds.
-/

namespace PluginHost

/-! ## Definitions -/

namespace Config

/-- No problem of the configuration is an error. -/
def Usable (c : Config) : Prop :=
  ∀ p ∈ c.problems, p.isError = false

/-- What is found at a path: what the file holds, or the defaults if there is none. -/
def found (path : String) (fs : Files) : Except Error Config :=
  if fs.present path then read path fs else .ok {}

/-- What the file at a path gives in an environment. -/
def inForce (path : String) (env : Environment) (fs : Files) : Except Error Config := do
  let c ← read path fs
  (c.overridden env.get?).checked

end Config

/-- Where a configuration is kept: what has been loaded, if anything, and what is around. -/
structure Desk where
  env : Environment
  files : Files
  snapshot : Option Snapshot := none

/-- What may happen at a desk. Its surroundings change as they like. -/
inductive Desk.Deed
  | load (explicit : Option String)
  | adopt (c : Config)
  | reload
  | update (f : Config → Config)
  | move (env : Environment) (files : Files)

/-- The deed makes a snapshot where there was another one, or none. -/
def Desk.Deed.Makes : Desk.Deed → Prop
  | .load _ => True
  | .adopt _ => True
  | _ => False

/-- The deed changes a configuration by hand. -/
def Desk.Deed.Alters : Desk.Deed → Prop
  | .update _ => True
  | _ => False

namespace Desk

/-- Keeps a snapshot, if there is one to keep. -/
def take (d : Desk) : Except Error Snapshot → Option (Except Error Unit) × Desk
  | .ok s => (some (.ok ()), { d with snapshot := some s })
  | .error e => (some (.error e), d)

/-- Does a deed: what it came to, if there was anything to do it with, and the desk. -/
def act (d : Desk) : Deed → Option (Except Error Unit) × Desk
  | .load explicit => d.take (Snapshot.load explicit d.env d.files)
  | .adopt c => d.take (Snapshot.ofConfig c)
  | .reload =>
    match d.snapshot with
    | some s =>
      let (r, s) := s.reload d.env d.files
      (some r, { d with snapshot := some s })
    | none => (none, d)
  | .update f =>
    match d.snapshot with
    | some s => (some (.ok ()), { d with snapshot := some (s.update f) })
    | none => (none, d)
  | .move env files => (some (.ok ()), { d with env, files })

/-- Deeds one after the other. -/
def run (d : Desk) (deeds : List Deed) : Desk :=
  deeds.foldl (fun d deed => (d.act deed).2) d

/-- A deed is done, and with success. -/
def Succeeds (d : Desk) (deed : Deed) : Prop :=
  (d.act deed).1 = some (.ok ())

/-- No deed puts another snapshot in the place of the one that is kept. -/
def Keeps (d : Desk) : List Deed → Prop
  | [] => True
  | deed :: rest => (deed.Makes → ¬ d.Succeeds deed) ∧ (d.act deed).2.Keeps rest

/-- What loading comes to at a desk, for the first time and again. -/
structure Disciplined (d : Desk) : Prop where
  /-- What is found is not loaded if it has errors in force. -/
  load_refuses : ∀ explicit c, Config.found (Config.location explicit d.env) d.files = .ok c →
    ¬ (c.overridden d.env.get?).Usable →
    ∃ text, d.act (.load explicit) = (some (.error (.config text)), d)
  /-- Nor is a configuration with errors taken over. -/
  adopt_refuses : ∀ c, ¬ c.Usable → ∃ text, d.act (.adopt c) = (some (.error (.config text)), d)
  /-- Loading again succeeds with what the file holds now, in the environment as it is now. -/
  reload_succeeds : ∀ s, d.snapshot = some s → d.Succeeds .reload →
    ∃ c, Config.read s.path d.files = .ok c ∧ (c.overridden d.env.get?).Usable ∧
      (d.act .reload).2 = { d with snapshot := some ⟨c.overridden d.env.get?, s.path⟩ }
  /-- Or it fails, and everything is as it was. -/
  reload_fails : ∀ e, (d.act .reload).1 = some (.error e) → (d.act .reload).2 = d
  /-- On a file, it is the same as loading from its path. -/
  reload_as_load : ∀ s, d.snapshot = some s → d.files.present s.path = true →
    d.act .reload = d.act (.load (some s.path))
  /-- Without a file, the defaults are loaded, but not again. -/
  load_absent : ∀ explicit, d.files.present (Config.location explicit d.env) = false →
    d.act (.load explicit) = (some (.ok ()), { d with
      snapshot := some ⟨({} : Config).overridden d.env.get?, Config.location explicit d.env⟩ })
  reload_absent : ∀ s, d.snapshot = some s → d.files.present s.path = false →
    ∃ text, d.act .reload = (some (.error (.config text)), d)

end Desk

/-! ## Configurations -/

namespace Config

variable {c c' : Config} {path : String} {env : Environment} {fs : Files}

theorem usable_iff : c.Usable ↔ c.problems.filter Problem.isError = [] := by
  rw [List.filter_eq_nil_iff]
  constructor
  · intro usable p hp
    rw [usable p hp]
    exact Bool.false_ne_true
  · intro none p hp
    exact Bool.eq_false_iff.mpr (none p hp)

/-- A check passes exactly what is usable, as it is. -/
theorem checked_eq_ok_iff : c.checked = .ok c' ↔ c' = c ∧ c.Usable := by
  rw [usable_iff, checked, check]
  by_cases none : c.problems.filter Problem.isError = []
  · simp only [none, if_true, and_true, Except.ok.injEq]
    exact eq_comm
  · simp only [none, if_false, and_false, reduceCtorEq]

theorem checked_of_usable (usable : c.Usable) : c.checked = .ok c :=
  checked_eq_ok_iff.mpr ⟨rfl, usable⟩

theorem checked_of_not_usable (bad : ¬ c.Usable) :
    c.checked = .error (.config (errorsText (c.problems.filter Problem.isError))) := by
  rw [usable_iff] at bad
  simp only [checked, check, if_neg bad]

theorem problemIf_harmless {bad : Bool} {p : Problem} :
    (∀ q ∈ problemIf bad p, q.isError = false) ↔ (bad = true → p.isError = false) := by
  cases bad <;> simp [problemIf]

theorem keyProblems_harmless {s : PluginSettings} : (∀ q ∈ keyProblems s, q.isError = false) ↔
    (s.requireSignatures = true → s.trustedKey.isSome = true) := by
  unfold keyProblems
  cases s.trustedKey.isSome <;> cases s.requireSignatures <;>
    simp [Problem.isError, Problem.weight]

/-- The four settings that can be wrong beyond use. -/
theorem usable_iff_settings : c.Usable ↔
    (c.plugins.requireSignatures = true → c.plugins.trustedKey.isSome = true) ∧
    (c.plugins.verifier.kind = .command → c.plugins.verifier.command.isSome = true) ∧
    isExtension c.plugins.extension = true ∧ c.runtime.eventCapacity ≠ 0 := by
  simp only [Usable, problems, List.forall_mem_append, keyProblems_harmless, problemIf_harmless]
  simp [Problem.isError, Problem.weight, and_assoc, Option.isSome_iff_ne_none]

/-- Variables have no part in it. -/
theorem overridden_usable_iff (var : String → Option String) :
    (c.overridden var).Usable ↔ c.Usable := by
  rw [usable_iff_settings, usable_iff_settings]
  rfl

theorem default_usable (var : String → Option String) : (({} : Config).overridden var).Usable := by
  rw [overridden_usable_iff, usable_iff_settings]
  decide +kernel

/-- What a file gives, and when it gives anything. -/
theorem inForce_eq_ok_iff : inForce path env fs = .ok c' ↔
    ∃ c, read path fs = .ok c ∧ c' = c.overridden env.get? ∧ c'.Usable := by
  rw [inForce]
  cases h : read path fs with
  | error e => simp [bind, Except.bind]
  | ok c =>
    show (c.overridden env.get?).checked = .ok c' ↔ _
    rw [checked_eq_ok_iff]
    constructor
    · rintro ⟨rfl, usable⟩
      exact ⟨c, rfl, rfl, usable⟩
    · rintro ⟨c₀, hc, rfl, usable⟩
      cases hc
      exact ⟨rfl, usable⟩

end Config

/-! ## Loading -/

/-- Nothing is at the empty path. -/
theorem Files.present_empty (fs : Files) : fs.present "" = false := by
  have nowhere : fs.resolve true "" = .error .notFound := by
    rw [resolve, if_neg (by decide), if_pos rfl]
  rw [present, node, nowhere]
  rfl

namespace Snapshot

open Config

variable {s s' : Snapshot} {c : Config} {explicit : Option String} {env : Environment} {fs : Files}

theorem fresh_of_present (there : fs.present s.path = true) :
    s.fresh env fs = inForce s.path env fs := by
  rw [fresh, if_pos there, inForce]

theorem fresh_of_absent (absent : fs.present s.path = false) :
    s.fresh env fs = .error (.config ("config file not found: " ++ s.path)) := by
  rw [fresh, absent]
  rfl

/-- Loading checks what is found, after the variables are applied. -/
theorem load_eq : load explicit env fs = (found (location explicit env) fs).bind fun c =>
    (c.overridden env.get?).checked.map fun c => ⟨c, location explicit env⟩ := by
  have checks (c : Config) :
      ((c.overridden env.get?).checked.bind fun c => .ok ⟨c, location explicit env⟩) =
        (c.overridden env.get?).checked.map fun c => (⟨c, location explicit env⟩ : Snapshot) := by
    cases (c.overridden env.get?).checked <;> rfl
  rw [load, found]
  cases fs.present (location explicit env) with
  | false => exact checks {}
  | true =>
    show (read (location explicit env) fs).bind _ = (read (location explicit env) fs).bind _
    cases read (location explicit env) fs with
    | error e => rfl
    | ok c => exact checks c

/-- Loading succeeds with what is found in force, if that is usable. -/
theorem load_eq_ok_iff : load explicit env fs = .ok s ↔
    s.path = location explicit env ∧ s.config.Usable ∧
      ∃ c, found (location explicit env) fs = .ok c ∧ s.config = c.overridden env.get? := by
  rw [load_eq]
  obtain ⟨config, path⟩ := s
  cases found (location explicit env) fs with
  | error e => simp [Except.bind]
  | ok c =>
    by_cases usable : (c.overridden env.get?).Usable
    · rw [Except.bind, checked_of_usable usable, Except.map, Except.ok.injEq, Snapshot.mk.injEq]
      constructor
      · rintro ⟨rfl, rfl⟩
        exact ⟨rfl, usable, c, rfl, rfl⟩
      · rintro ⟨rfl, -, _, hc, rfl⟩
        cases hc
        exact ⟨rfl, rfl⟩
    · rw [Except.bind, checked_of_not_usable usable, Except.map]
      constructor
      · intro h
        cases h
      · rintro ⟨-, h, _, hc, rfl⟩
        cases hc
        exact absurd h usable

theorem load_of_present (there : fs.present (location explicit env) = true) :
    load explicit env fs =
      (inForce (location explicit env) env fs).map fun c => ⟨c, location explicit env⟩ := by
  rw [load_eq, found, if_pos there, inForce]
  cases read (location explicit env) fs <;> rfl

/-- Without a file the configuration is the default one. -/
theorem load_of_absent (absent : fs.present (location explicit env) = false) :
    load explicit env fs =
      .ok ⟨({} : Config).overridden env.get?, location explicit env⟩ := by
  rw [load_eq_ok_iff, found, absent]
  exact ⟨rfl, default_usable _, {}, rfl, rfl⟩

theorem fresh_eq_ok_iff : s.fresh env fs = .ok c ↔
    fs.present s.path = true ∧ c.Usable ∧
      ∃ c₀, read s.path fs = .ok c₀ ∧ c = c₀.overridden env.get? := by
  cases there : fs.present s.path with
  | false =>
    rw [fresh_of_absent there]
    constructor
    · intro h
      cases h
    · rintro ⟨h, -⟩
      cases h
  | true =>
    rw [fresh_of_present there, inForce_eq_ok_iff]
    constructor
    · rintro ⟨c₀, hread, rfl, usable⟩
      exact ⟨rfl, usable, c₀, hread, rfl⟩
    · rintro ⟨-, usable, c₀, hread, rfl⟩
      exact ⟨c₀, hread, rfl, usable⟩

theorem ofConfig_eq_ok_iff : ofConfig c = .ok s ↔ s = ⟨c, ""⟩ ∧ c.Usable := by
  rw [ofConfig]
  by_cases usable : c.Usable
  · simp only [checked_of_usable usable, bind, Except.bind, Except.ok.injEq, usable, and_true]
    exact eq_comm
  · simp [checked_of_not_usable usable, bind, Except.bind, usable]

end Snapshot

/-! ## Deeds -/

namespace Desk

variable {d : Desk} {s : Snapshot} {deed : Deed}

theorem act_reload (kept : d.snapshot = some s) : d.act .reload =
    (some (s.reload d.env d.files).1, { d with snapshot := some (s.reload d.env d.files).2 }) := by
  rw [act, kept]

theorem act_reload_error {e : Error} (kept : d.snapshot = some s)
    (failed : s.fresh d.env d.files = .error e) : d.act .reload = (some (.error e), d) := by
  rw [act_reload kept, Snapshot.reload, failed, ← kept]

theorem act_reload_ok {c : Config} (kept : d.snapshot = some s)
    (given : s.fresh d.env d.files = .ok c) :
    d.act .reload = (some (.ok ()), { d with snapshot := some ⟨c, s.path⟩ }) := by
  rw [act_reload kept, Snapshot.reload, given]

/-- Loading again does one of two things. -/
theorem act_reload_cases (kept : d.snapshot = some s) :
    (∃ c, s.fresh d.env d.files = .ok c ∧
      d.act .reload = (some (.ok ()), { d with snapshot := some ⟨c, s.path⟩ })) ∨
    (∃ e, s.fresh d.env d.files = .error e ∧ d.act .reload = (some (.error e), d)) := by
  cases fresh : s.fresh d.env d.files with
  | ok c => exact .inl ⟨c, rfl, act_reload_ok kept fresh⟩
  | error e => exact .inr ⟨e, rfl, act_reload_error kept fresh⟩

/-- With nothing to load again, nothing is done. -/
theorem act_reload_none (nothing : d.snapshot = none) : d.act .reload = (none, d) := by
  rw [act, nothing]

theorem disciplined (d : Desk) : d.Disciplined where
  load_refuses explicit c found bad := by
    rw [act, Snapshot.load_eq, found, Except.bind, Config.checked_of_not_usable bad]
    exact ⟨_, rfl⟩
  adopt_refuses c bad := by
    rw [act, Snapshot.ofConfig, Config.checked_of_not_usable bad]
    exact ⟨_, rfl⟩
  reload_succeeds s kept succeeds := by
    rcases act_reload_cases kept with ⟨c, fresh, acted⟩ | ⟨e, -, acted⟩
    · obtain ⟨-, usable, c₀, hread, rfl⟩ := Snapshot.fresh_eq_ok_iff.mp fresh
      exact ⟨c₀, hread, usable, congrArg Prod.snd acted⟩
    · rw [Succeeds, acted] at succeeds
      cases succeeds
  reload_fails e failed := by
    cases kept : d.snapshot with
    | none => rw [act_reload_none kept]
    | some s =>
      rcases act_reload_cases kept with ⟨c, -, acted⟩ | ⟨e', -, acted⟩
      · rw [acted] at failed
        cases failed
      · rw [acted]
  reload_as_load s kept there := by
    have loaded : Snapshot.load (some s.path) d.env d.files =
        (s.fresh d.env d.files).map fun c => ⟨c, s.path⟩ := by
      rw [Snapshot.fresh_of_present there]
      exact Snapshot.load_of_present there
    rcases act_reload_cases kept with ⟨c, fresh, acted⟩ | ⟨e, fresh, acted⟩
    · rw [acted, act, loaded, fresh]
      rfl
    · rw [acted, act, loaded, fresh]
      rfl
  load_absent explicit absent := by
    rw [act, Snapshot.load_of_absent absent]
    rfl
  reload_absent s kept absent :=
    ⟨_, act_reload_error kept (Snapshot.fresh_of_absent absent)⟩

theorem take_of_fails {r : Except Error Snapshot} (fails : (d.take r).1 ≠ some (.ok ())) :
    (d.take r).2 = d := by
  cases r with
  | ok s => exact absurd rfl fails
  | error e => rfl

theorem take_of_succeeds {r : Except Error Snapshot} (succeeds : (d.take r).1 = some (.ok ())) :
    ∃ s, r = .ok s ∧ (d.take r).2.snapshot = some s := by
  cases r with
  | ok s => exact ⟨s, rfl, rfl⟩
  | error e => cases succeeds

/-- A snapshot that is made, or loaded again, is usable. -/
theorem act_loads (loads : deed.Makes ∨ deed = .reload) (succeeds : d.Succeeds deed) :
    ∃ s, (d.act deed).2.snapshot = some s ∧ s.config.Usable := by
  cases deed with
  | load explicit =>
    obtain ⟨s, loaded, kept⟩ := take_of_succeeds succeeds
    exact ⟨s, kept, (Snapshot.load_eq_ok_iff.mp loaded).2.1⟩
  | adopt c =>
    obtain ⟨s, adopted, kept⟩ := take_of_succeeds succeeds
    obtain ⟨rfl, usable⟩ := Snapshot.ofConfig_eq_ok_iff.mp adopted
    exact ⟨_, kept, usable⟩
  | reload =>
    cases kept : d.snapshot with
    | none =>
      rw [Succeeds, act_reload_none kept] at succeeds
      cases succeeds
    | some s =>
      obtain ⟨c, -, usable, after⟩ := d.disciplined.reload_succeeds s kept succeeds
      rw [after]
      exact ⟨_, rfl, usable⟩
  | update f => simp [Deed.Makes] at loads
  | move env files => simp [Deed.Makes] at loads

/-- Whatever is done but changes by hand, what is kept stays usable. -/
theorem act_usable (kept : ∃ s, d.snapshot = some s ∧ s.config.Usable) (sound : ¬ deed.Alters) :
    ∃ s, (d.act deed).2.snapshot = some s ∧ s.config.Usable := by
  by_cases succeeds : (deed.Makes ∨ deed = .reload) ∧ d.Succeeds deed
  · exact act_loads succeeds.1 succeeds.2
  obtain ⟨s, snapshot, usable⟩ := kept
  cases deed with
  | load explicit =>
    rw [act, take_of_fails fun h => succeeds ⟨.inl trivial, h⟩]
    exact ⟨s, snapshot, usable⟩
  | adopt c =>
    rw [act, take_of_fails fun h => succeeds ⟨.inl trivial, h⟩]
    exact ⟨s, snapshot, usable⟩
  | reload =>
    rcases act_reload_cases snapshot with ⟨c, -, acted⟩ | ⟨e, -, acted⟩
    · exact absurd ⟨.inr rfl, congrArg Prod.fst acted⟩ succeeds
    · rw [acted]
      exact ⟨s, snapshot, usable⟩
  | update f => exact absurd trivial sound
  | move env files => exact ⟨s, snapshot, usable⟩

/-- A snapshot keeps its path as long as it is not replaced. -/
theorem act_path (kept : d.snapshot = some s) (keeps : deed.Makes → ¬ d.Succeeds deed) :
    ∃ s', (d.act deed).2.snapshot = some s' ∧ s'.path = s.path := by
  cases deed with
  | load explicit =>
    rw [act, take_of_fails (keeps trivial)]
    exact ⟨s, kept, rfl⟩
  | adopt c =>
    rw [act, take_of_fails (keeps trivial)]
    exact ⟨s, kept, rfl⟩
  | reload =>
    rcases act_reload_cases kept with ⟨c, -, acted⟩ | ⟨e, -, acted⟩
    · rw [acted]
      exact ⟨_, rfl, rfl⟩
    · rw [acted]
      exact ⟨s, kept, rfl⟩
  | update f =>
    rw [act, kept]
    exact ⟨_, rfl, rfl⟩
  | move env files => exact ⟨s, kept, rfl⟩

/-! ## Deeds in a row -/

theorem run_append (d : Desk) (deeds more : List Deed) :
    d.run (deeds ++ more) = (d.run deeds).run more :=
  List.foldl_append ..

theorem run_usable {deeds : List Deed} (kept : ∃ s, d.snapshot = some s ∧ s.config.Usable)
    (sound : ∀ deed ∈ deeds, ¬ deed.Alters) :
    ∃ s, (d.run deeds).snapshot = some s ∧ s.config.Usable := by
  induction deeds generalizing d with
  | nil => exact kept
  | cons deed rest ih =>
    exact ih (act_usable kept (sound deed List.mem_cons_self))
      fun other mem => sound other (List.mem_cons_of_mem deed mem)

theorem run_path {deeds : List Deed} (kept : d.snapshot = some s) (keeps : d.Keeps deeds) :
    ∃ s', (d.run deeds).snapshot = some s' ∧ s'.path = s.path := by
  induction deeds generalizing d s with
  | nil => exact ⟨s, kept, rfl⟩
  | cons deed rest ih =>
    obtain ⟨s₁, kept₁, path₁⟩ := act_path kept keeps.1
    obtain ⟨s₂, kept₂, path₂⟩ := ih kept₁ keeps.2
    exact ⟨s₂, kept₂, path₂.trans path₁⟩

end Desk

/-- **The discipline of loading.** Whatever is done with configurations, and whatever happens
to files and variables in between:
* at the end, and so at every point, loading for the first time and again is `Disciplined`;
* what was taken over and never in a file is not loaded again, until something else is loaded;
* a configuration is usable as long as nobody has changed it by hand since it was loaded, for
  the first time or again, or taken over. -/
theorem loading_is_disciplined (env : Environment) (files : Files) (deeds : List Desk.Deed) :
    (Desk.run ⟨env, files, none⟩ deeds).Disciplined ∧
    (∀ before c after, deeds = before ++ .adopt c :: after →
      (Desk.run ⟨env, files, none⟩ before).Succeeds (.adopt c) →
      (Desk.run ⟨env, files, none⟩ (before ++ [.adopt c])).Keeps after →
      ∃ text, (Desk.run ⟨env, files, none⟩ deeds).act .reload =
        (some (.error (.config text)), Desk.run ⟨env, files, none⟩ deeds)) ∧
    (∀ before deed after, deeds = before ++ deed :: after → (deed.Makes ∨ deed = .reload) →
      (Desk.run ⟨env, files, none⟩ before).Succeeds deed → (∀ d ∈ after, ¬ d.Alters) →
      ∃ s, (Desk.run ⟨env, files, none⟩ deeds).snapshot = some s ∧ s.config.Usable) := by
  refine ⟨Desk.disciplined _, ?_, ?_⟩
  · rintro before c after rfl succeeds keeps
    have adopted : (Desk.run ⟨env, files, none⟩ (before ++ [.adopt c])).snapshot =
        some ⟨c, ""⟩ := by
      obtain ⟨s, made, kept⟩ := Desk.take_of_succeeds succeeds
      obtain ⟨rfl, -⟩ := Snapshot.ofConfig_eq_ok_iff.mp made
      rw [Desk.run_append]
      exact kept
    obtain ⟨s, kept, path⟩ := Desk.run_path adopted keeps
    rw [← Desk.run_append, List.append_assoc, List.singleton_append] at kept
    refine (Desk.disciplined _).reload_absent s kept ?_
    rw [path]
    exact Files.present_empty _
  · rintro before deed after rfl loads succeeds sound
    rw [Desk.run_append]
    exact Desk.run_usable (d := ((Desk.run ⟨env, files, none⟩ before).act deed).2)
      (Desk.act_loads loads succeeds) sound

namespace Draft

/-- A directory with a configuration in it. -/
def files (text : String) : Files :=
  ⟨.dir [("keel.toml", .file (Utf8.bytesOf text))], []⟩

def spoilt (c : Config) : Config :=
  { c with runtime := { c.runtime with eventCapacity := 0 } }

/-- A configuration is loaded and changed by hand, and then its file changes. -/
def deeds : List Desk.Deed :=
  [.load (some "keel.toml"), .update spoilt, .move {} (files "[runtime]\nheadless = true\n")]

end Draft

/-- What was changed by hand is gone when the file is loaded again, and the defaults, which no
file holds, are not loaded again. -/
theorem draft_is_disciplined :
    ((Desk.run ⟨{}, Draft.files "", none⟩ Draft.deeds).act .reload).2.snapshot.map
        (fun s => (s.config.runtime.headless, s.config.runtime.eventCapacity)) =
      some (true, 1024) ∧
    (∃ text, (Desk.run ⟨{}, Draft.files "", none⟩ [.adopt {}]).act .reload =
      (some (.error (.config text)), Desk.run ⟨{}, Draft.files "", none⟩ [.adopt {}])) ∧
    ∃ s, (Desk.run ⟨{}, Draft.files "", none⟩ [.load (some "keel.toml")]).snapshot = some s ∧
      s.config.Usable := by
  obtain ⟨disciplined, -, -⟩ := loading_is_disciplined {} (Draft.files "") Draft.deeds
  obtain ⟨-, adopted, -⟩ := loading_is_disciplined {} (Draft.files "") [.adopt {}]
  obtain ⟨-, -, usable⟩ :=
    loading_is_disciplined {} (Draft.files "") [.load (some "keel.toml")]
  refine ⟨?_, adopted [] {} [] rfl rfl trivial,
    usable [] (.load (some "keel.toml")) [] rfl (.inl trivial) rfl (by simp)⟩
  rw [disciplined.reload_as_load ⟨{ runtime := { eventCapacity := 0 } }, "keel.toml"⟩]
  · decide +kernel
  · decide +kernel
  · decide +kernel

end PluginHost
