import PluginHost.Manager.Native
import PluginHost.Proofs.Plugin.Voice
import PluginHost.Proofs.Session.Failure
import PluginHost.Proofs.Session.Origin

/-!
# What a module offers

Whether a module is loaded depends on two things: on what it offers by itself, and on whether
its id is free. What it offers is told by its sidecar and the trusted key, as long as the
verifier keeps to these, and by what it is opened as. So it is the same at every attempt that
finds the same there.

* `Attempt.Offers` is what a module offers, and `Attempt.Goes` what comes of it.
* `Manager.SameLoad` says that a load finds the same in other files, and `Attempt.Alike` that two
  attempts find the same.
* `Loader.OwnFile` says that a module is opened by its own file.

Results:
1. `Attempt.goes`: a module that offers a plugin is loaded if the id is free.
2. `Attempt.Alike.offers`: where two attempts find the same, so is the offer.
3. `Attempt.kept_of_steady`: an attempt changes nothing that a later one looks at.
4. `Native.loader_ownFile`: the system's own loader opens a module by its own file.
-/

namespace PluginHost

-- Nothing here depends on how paths are taken apart, so reduction stops before it.
attribute [local irreducible] Gate.check Files.present Files.read

/-! ## Definitions -/

/-- The manifest says who the plugin is, if there is one. -/
def Trust.Agrees (t : Trust) (who : Metadata) : Prop :=
  ∀ d, t.manifest? = some d → d.id = who.id ∧ d.version = who.version

namespace Attempt

variable {σ : Type}

/-- What the module offers, before it is known whether the id is free: the gate lets it in, it
says who it is, and its manifest says the same. -/
structure Offers (a : Attempt σ) (t : Trust) (i : Interface σ) (who : Metadata) : Prop where
  gate : a.check = .ok t
  reported : a.reported? = some (i, who)
  agrees : t.Agrees who

/-- What comes of an attempt.

* `joins`: the module offers a plugin whose id is free, and it is taken in.
* `fails`: the module is not loaded, and if it offers a plugin then the id is taken. -/
inductive Goes (a : Attempt σ) : Prop
  | joins {t : Trust} {i : Interface σ} {who : Metadata} (offers : a.Offers t i who)
      (free : who.id ∉ a.manager.plugins.map (·.id))
      (result : a.run.1 = .ok who.id)
      (manager : a.run.2.1 = { a.manager with plugins := a.manager.plugins ++
        [Manager.newcomer a.manager.policy a.path t i who a.handle] })
      (bus : a.run.2.2.bus = a.world.bus.publishAll [.pluginLoaded who.id who.version])
  | fails {e : Error} (result : a.run.1 = .error e) (manager : a.run.2.1 = a.manager)
      (bus : a.run.2.2.bus = a.world.bus)
      (taken : ∀ t i who, a.Offers t i who → who.id ∈ a.manager.plugins.map (·.id))

end Attempt

/-- A load of the module finds the same in other files: what the gate looks at can be read with
the same result, and the module is opened as the same. -/
structure Manager.SameLoad {σ : Type} (m : Manager σ) (outside : σ) (path : String)
    (fs fs' : Files) : Prop where
  looks : Files.SameRead (m.gate.looksAt path) fs fs'
  opens : m.loader path fs outside = m.loader path fs' outside

/-- The same module is tried under the same set-up, and finds the same. -/
structure Attempt.Alike {σ : Type} (a b : Attempt σ) : Prop where
  setUp : b.manager.setUp = a.manager.setUp
  path : b.path = a.path
  files : a.manager.SameLoad a.world.outside a.path a.world.files b.world.files
  outside : b.world.outside = a.world.outside

/-- What a path is opened as is told by its own file. -/
def Loader.OwnFile {σ : Type} (loader : Loader σ) : Prop :=
  ∀ path fs fs' outside, Files.SameRead [path] fs fs' →
    loader path fs outside = loader path fs' outside

/-! ## Ids -/

section ids

variable {σ : Type} {m : Manager σ} {path : String} {t : Trust} {who : Metadata}

theorem Manager.vet_eq_ok_iff :
    m.vet path t who = .ok () ↔ who.id ∉ m.plugins.map (·.id) ∧ t.Agrees who := by
  rw [← find?_eq_none_iff, vet, Trust.Agrees]
  cases m.find? who.id with
  | some p => simp
  | none =>
    cases t.manifest? with
    | none => simp
    | some d => by_cases same : d.id = who.id <;> simp [same]

end ids

/-! ## Attempts -/

namespace Attempt

variable {σ : Type} {a b : Attempt σ} {t : Trust} {i : Interface σ} {who : Metadata}

/-- A module offers one plugin only. -/
theorem Offers.unique {t' : Trust} {i' : Interface σ} {who' : Metadata} (one : a.Offers t i who)
    (other : a.Offers t' i' who') : t' = t ∧ i' = i ∧ who' = who := by
  cases one.gate.symm.trans other.gate
  cases one.reported.symm.trans other.reported
  exact ⟨rfl, rfl, rfl⟩

/-- A plugin whose id is free is taken in. -/
theorem Offers.run (offers : a.Offers t i who)
    (free : who.id ∉ a.manager.plugins.map (·.id)) : ∃ questions : List Identity, a.run =
      (.ok who.id, { a.manager with plugins := a.manager.plugins ++
        [Manager.newcomer a.manager.policy a.path t i who a.handle] },
        (a.opened.inquired a.handle questions).publish (.pluginLoaded who.id who.version)) := by
  obtain ⟨gate, reported, agrees⟩ := offers
  unfold reported? at reported
  cases opens : a.manager.loader a.path a.checked.files a.checked.outside with
  | error reason => simp [opens] at reported
  | ok code =>
    simp only [opens] at reported
    rcases told : Manager.identify a.path code a.handle a.opened with ⟨e | found, w⟩
    · simp [told, Except.toOption] at reported
    · rw [told] at reported
      cases reported
      have welcome := Manager.take_of_welcome told (Manager.vet_eq_ok_iff.mpr ⟨free, agrees⟩)
      exact ⟨_, by rw [run_of_opened gate opens, welcome, Manager.inquired_of_identify told]⟩

/-- A plugin that was taken in was offered, and its id was free. -/
theorem offers_of_ok {id : String} (ok : a.result = .ok id) :
    ∃ t i who, a.Offers t i who ∧ who.id ∉ a.manager.plugins.map (·.id) := by
  have came := a.came
  generalize a.run.2.1 = m, a.run.2.2 = w at came
  cases came with
  | refused _ result => cases ok.symm.trans result
  | unopened _ result => cases ok.symm.trans result
  | rejected _ result _ => cases ok.symm.trans result
  | joined gate reported vetted _ _ =>
    obtain ⟨free, agrees⟩ := Manager.vet_eq_ok_iff.mp vetted
    exact ⟨_, _, _, ⟨gate, reported, agrees⟩, free⟩

/-- A module that offers a plugin is loaded if the id is free, and no other module is. -/
theorem goes (a : Attempt σ) : a.Goes := by
  cases result : a.result with
  | ok id =>
    obtain ⟨t, i, who, offers, free⟩ := offers_of_ok result
    obtain ⟨questions, run⟩ := offers.run free
    exact .joins offers free (by rw [run]) (by rw [run]) (by rw [run]; rfl)
  | error e =>
    obtain ⟨manager, fails⟩ := fails result
    refine .fails result manager ?_ fun t i who offers => ?_
    · rcases fails.world with ⟨-, world⟩ | ⟨_, _, -, world⟩ <;> rw [world] <;> rfl
    · refine Classical.byContradiction fun free => ?_
      obtain ⟨questions, run⟩ := offers.run free
      rw [Attempt.result, run] at result
      cases result

/-- When a module was tried, the id of what it offers is taken. -/
theorem Offers.taken (offers : a.Offers t i who) : who.id ∈ a.run.2.1.plugins.map (·.id) := by
  cases a.goes with
  | joins offers' _ _ manager _ =>
    obtain ⟨-, -, rfl⟩ := offers.unique offers'
    rw [manager, List.map_append]
    exact List.mem_append_right _ (List.mem_singleton.mpr rfl)
  | fails _ manager _ taken =>
    rw [manager]
    exact taken _ _ _ offers

theorem run_setUp (a : Attempt σ) : a.run.2.1.setUp = a.manager.setUp := by
  cases a.goes with
  | joins _ _ _ manager => rw [manager]; rfl
  | fails _ manager => rw [manager]

/-- Whatever comes of an attempt, it changes no files but those that the gate has changed, and
nothing outside the host. -/
theorem run_kept (a : Attempt σ) :
    a.run.2.2.files = a.checked.files ∧ a.run.2.2.outside = a.world.outside := by
  cases result : a.result with
  | ok id =>
    obtain ⟨t, i, who, offers, free⟩ := offers_of_ok result
    obtain ⟨questions, run⟩ := offers.run free
    rw [run]
    exact ⟨rfl, rfl⟩
  | error e =>
    rcases (fails result).2.world with ⟨-, world⟩ | ⟨_, _, -, world⟩
    all_goals
      rw [world]
      exact ⟨rfl, rfl⟩

end Attempt

/-! ## Loads that find the same -/

section same

variable {σ : Type}

theorem Manager.setUp_eq_iff {m m' : Manager σ} : m'.setUp = m.setUp ↔
    m'.loader = m.loader ∧ m'.gate = m.gate ∧ m'.policy = m.policy ∧ m'.host = m.host := by
  simp [setUp]

theorem Manager.steady_of_setUp {m m' : Manager σ} (steady : m.gate.verifier.Steady)
    (same : m'.setUp = m.setUp) : m'.gate.verifier.Steady :=
  (setUp_eq_iff.mp same).2.1 ▸ steady

namespace Manager.SameLoad

variable {m m' : Manager σ} {outside : σ} {path : String} {fs fs' : Files}

theorem refl (m : Manager σ) (outside : σ) (path : String) (fs : Files) :
    m.SameLoad outside path fs fs :=
  ⟨fun _ _ => rfl, rfl⟩

theorem of_setUp (load : m.SameLoad outside path fs fs') (same : m'.setUp = m.setUp) :
    m'.SameLoad outside path fs fs' := by
  obtain ⟨loader, gate, -, -⟩ := setUp_eq_iff.mp same
  exact ⟨gate ▸ load.looks, loader ▸ load.opens⟩

/-- A module that is opened by its own file is so in other files, if these three are the same. -/
theorem of_ownFile (own : m.loader.OwnFile) (looks : Files.SameRead (m.gate.looksAt path) fs fs')
    (read : fs.read path = fs'.read path) : m.SameLoad outside path fs fs' :=
  ⟨looks, own path fs fs' outside fun _ hq => List.mem_singleton.mp hq ▸ read⟩

end Manager.SameLoad

/-- The system's own loader goes by what can be read. -/
theorem Native.reason_eq (path : String) (fs : Files) : reason path fs =
    if !path.toList.contains '/' then nothingFound
    else match fs.read path with
      | .ok data => headerFault data
      | .error .isDirectory => "cannot read file data: Is a directory"
      | .error f => "cannot open shared object file: " ++ wording f := by
  have never := fs.node_ne_isDirectory true path
  unfold reason Files.read
  split
  · rfl
  · cases denoted : fs.node true path with
    | error f => cases f <;> first | rfl | exact absurd denoted never
    | ok n => cases n <;> rfl

theorem Native.loader_ownFile : Loader.OwnFile (loader (σ := σ)) := by
  intro path fs fs' outside same
  have read := same path (List.mem_singleton.mpr rfl)
  rw [loader, loader, reason_eq, reason_eq, read]

/-- A gate with a steady verifier changes nothing. -/
theorem Attempt.checked_of_steady {a : Attempt σ} (steady : a.manager.gate.verifier.Steady) :
    a.checked = a.world := by
  have files : (a.manager.gate.check a.path a.world.files).2 = a.world.files := by
    rw [Gate.check_eq, Gate.decide_files_of_steady steady]
  rw [checked, files]

/-- An attempt changes nothing that a later one looks at. -/
theorem Attempt.kept_of_steady {a : Attempt σ} (steady : a.manager.gate.verifier.Steady) :
    a.run.2.2.files = a.world.files ∧ a.run.2.2.outside = a.world.outside := by
  obtain ⟨files, outside⟩ := a.run_kept
  exact ⟨files.trans (by rw [checked_of_steady steady]), outside⟩

namespace Attempt.Alike

variable {a b : Attempt σ} {t : Trust} {i : Interface σ} {who : Metadata}

/-- Where attempts find the same, so is what the module offers. -/
theorem offers_eq (alike : a.Alike b) (steady : a.manager.gate.verifier.Steady) :
    b.check = a.check ∧ b.reported? = a.reported? := by
  obtain ⟨loader, gate, -, -⟩ := Manager.setUp_eq_iff.mp alike.setUp
  constructor
  · rw [Attempt.check, Attempt.check, alike.path, gate, Gate.check_eq, Gate.check_eq,
      Gate.decide_of_sameRead steady alike.files.looks]
  · unfold Attempt.reported?
    rw [Attempt.checked_of_steady steady, Attempt.checked_of_steady (gate ▸ steady), alike.path,
      loader, alike.outside, ← alike.files.opens]
    cases a.manager.loader a.path a.world.files a.world.outside with
    | error reason => rfl
    | ok code =>
      have outside : b.opened.outside = a.opened.outside := alike.outside
      simp only [Manager.identify_eq, outside]

theorem offers (alike : a.Alike b) (steady : a.manager.gate.verifier.Steady) :
    b.Offers t i who ↔ a.Offers t i who := by
  obtain ⟨gate, reported⟩ := alike.offers_eq steady
  constructor
  · rintro ⟨checked, told, agrees⟩
    exact ⟨gate ▸ checked, reported ▸ told, agrees⟩
  · rintro ⟨checked, told, agrees⟩
    exact ⟨gate ▸ checked, reported ▸ told, agrees⟩

end Attempt.Alike

end same

end PluginHost
