import PluginHost.Proofs.Core.Start
import PluginHost.Proofs.Trust.Gate

/-!
# The marker of the first run

The marker is looked at and written when all plugins have been started, so a start depends on
it only where something else looks at the same file: the trust gate, which reads sidecars and
a key and may run a program, or the loader, or the search for candidates.

* `Heedless` is what does not look at files at all.
* `Manager.Blind` is a difference between files that loads do not notice.

Results:
1. `Manager.startAll_heedless` and `Manager.unloadUnstarted_heedless`: only loads look at files.
2. `Manager.blind_of_sameAt`: with the built-in verifier, loads look at sidecars and a key.
3. `Core.start_alike`: a start is the same wherever the marker is, and whatever is different
   in the files that loads do not notice.
4. `marker_is_key`: a marker that is also the key makes a difference.
-/

namespace PluginHost

-- Nothing here depends on how paths are taken apart, so reduction stops before it.
attribute [local irreducible] Gate.check Files.present

/-! ## Definitions -/

/-- The world with other files. -/
def World.withFiles {σ : Type} (w : World σ) (files : Files) : World σ :=
  { w with files }

/-- What `f` does has nothing to do with the files. -/
def Heedless {σ α β : Type} (f : World σ → α × β × World σ) : Prop :=
  ∀ w files, f (w.withFiles files) = ((f w).1, (f w).2.1, (f w).2.2.withFiles files)

/-- Loads of some paths do not notice what `R` allows to be different in files: the gate
decides the same and leaves a difference of the same kind, and the same module is opened. -/
structure Manager.Blind {σ : Type} (m : Manager σ) (paths : List String)
    (R : Files → Files → Prop) : Prop where
  gate : ∀ path ∈ paths, ∀ fs fs', R fs fs' →
    (m.gate.check path fs).1 = (m.gate.check path fs').1 ∧
      R (m.gate.check path fs).2 (m.gate.check path fs').2
  loader : ∀ path ∈ paths, ∀ fs fs' outside, R fs fs' →
    m.loader path fs outside = m.loader path fs' outside

namespace Core

variable {σ : Type}

/-- The core with another directory for its marker. -/
def relocated (c : Core σ) (configDir : Option String) : Core σ :=
  { c with config := { c.config with runtime := { c.config.runtime with configDir } } }

/-- Two starts are the same but for the marker: their reports list the same, their managers
are the same, and so is all of the world but the files. -/
def Alike (r r' : Except Error Start × Core σ × World σ) : Prop :=
  ∃ s s', r.1 = .ok s ∧ r'.1 = .ok s' ∧ s'.started = s.started ∧ s'.refused = s.refused ∧
    s'.failures = s.failures ∧ r'.2.1.manager? = r.2.1.manager? ∧
    ∃ files, r'.2.2 = r.2.2.withFiles files

end Core

/-! ## What does not look at files -/

section heedless

variable {σ α β γ δ : Type} {f : World σ → α × β × World σ}

@[simp] theorem World.withFiles_files (w : World σ) (files : Files) :
    (w.withFiles files).files = files := rfl
@[simp] theorem World.withFiles_outside (w : World σ) (files : Files) :
    (w.withFiles files).outside = w.outside := rfl
@[simp] theorem World.withFiles_handles (w : World σ) (files : Files) :
    (w.withFiles files).handles = w.handles := rfl
theorem World.note_withFiles (w : World σ) (files : Files) (e : Entry) :
    (w.withFiles files).note e = (w.note e).withFiles files := rfl
theorem World.publish_withFiles (w : World σ) (files : Files) (e : Event) :
    (w.withFiles files).publish e = (w.publish e).withFiles files := rfl

namespace Heedless

/-- What does not look at files does not change them either. -/
theorem files (heedless : Heedless f) (w : World σ) : (f w).2.2.files = w.files :=
  congrArg (fun r => r.2.2.files) (heedless w w.files)

theorem bind {g : α → β → World σ → γ × δ × World σ} (first : Heedless f)
    (rest : ∀ a b, Heedless (g a b)) : Heedless fun w => g (f w).1 (f w).2.1 (f w).2.2 := by
  intro w files
  simp only [first w files, rest _ _ _ files]

end Heedless

theorem Host.answer_heedless (host : Host) (caller : Caller) (call : Call) :
    Heedless (σ := σ) fun w => host.answer caller w call := by
  intro w files
  cases call with
  | has m => rfl
  | request m => cases caller <;> rfl
  | service kind => rfl
  | log level message => rfl
  | emit type payload =>
    cases caller with
    | none => rfl
    | some g =>
      simp only [answer, Option.elim, World.emit]
      cases Terminated.lossy type <;> rfl

theorem Hook.run_heedless (host : Host) (h : Handle) (t : Hook σ α) (caller : Caller) :
    Heedless (t.run host h caller) := by
  have noted (w : World σ) (files : Files) (call : Call) (b : Bool) :
      noteAnswer (w.withFiles files) h call b = (noteAnswer w h call b).withFiles files := by
    unfold noteAnswer
    split <;> rfl
  induction t generalizing caller with
  | done a => exact fun _ _ => rfl
  | ask call next ih =>
    intro w files
    cases caller with
    | none => exact ih false none w files
    | some g =>
      have answered := host.answer_heedless (some g) call w files
      simp only at answered
      simp only [run, answered, noted, ih _ _ _ files]
  | read next ih => exact fun w files => ih w.outside caller w files
  | write s next ih => exact fun w files => ih caller { w with outside := s } files

namespace Manager

variable (m : Manager σ)

theorem start_heedless (id : String) : Heedless (m.start id) := by
  intro w files
  unfold start
  cases m.find? id with
  | none => rfl
  | some p =>
    by_cases idle : p.state = .loaded
    · have ran (w : World σ) := Hook.run_heedless m.host p.handle (p.interface.start true)
        (some p.grant) (w.note (.starting p.handle true)) files
      simp only [idle, not_true_eq_false, ↓reduceIte, ne_eq, Interface.runStart,
        Option.isSome_some, World.note_withFiles, ran]
      split <;> rfl
    · simp only [idle, not_false_eq_true, ↓reduceIte, ne_eq]

theorem startEach_heedless (ids : List String) : Heedless fun w => m.startEach w ids := by
  induction ids generalizing m with
  | nil => exact fun _ _ => rfl
  | cons id rest ih =>
    intro w files
    have first := m.start_heedless id w files
    have others := ih (m.start id w).2.1 (m.start id w).2.2 files
    simp only [startEach, first] at others ⊢
    simp only [others]

/-- Starting plugins has nothing to do with files. -/
theorem startAll_heedless : Heedless m.startAll :=
  m.startEach_heedless _

theorem releaseEach_heedless (host : Host) (ps : List (Managed σ)) :
    Heedless fun w => ((), (), releaseEach host ps w) := by
  have one (p : Managed σ) (w : World σ) (files : Files) :
      release host p (w.withFiles files) = (release host p w).withFiles files := by
    unfold release stopIfStarted
    split
    · have ran := Hook.run_heedless host p.handle p.interface.stop (some p.grant)
        (w.note (.stopped p.handle)) files
      simp only [Interface.runStop, World.note_withFiles, ran]
      rfl
    · rfl
  intro w files
  induction ps generalizing w with
  | nil => rfl
  | cons p rest ih =>
    have others := ih (release host p w)
    simp only [releaseEach, List.foldl_cons, one] at others ⊢
    exact others

theorem unloadUnstarted_heedless : Heedless m.unloadUnstarted := by
  intro w files
  have released := releaseEach_heedless m.host
    (m.plugins.filter fun p => p.state = .loaded).reverse w files
  simp only [Prod.mk.injEq, true_and] at released
  simp only [unloadUnstarted, released]

end Manager

end heedless

/-! ## Loads that do not notice a difference -/

section blind

variable {σ : Type}

namespace Manager

variable {m : Manager σ} {R : Files → Files → Prop} {w : World σ} {files : Files}

theorem identify_withFiles (path : String) (code : Code σ) (h : Handle) (w : World σ)
    (files : Files) : identify path code h (w.withFiles files) =
      ((identify path code h w).1, (identify path code h w).2.withFiles files) := by
  rw [identify_eq, identify_eq]
  rfl

/-- A module that is open is taken in, or closed, whatever the files are. -/
theorem take_heedless (m : Manager σ) (path : String) (t : Trust) (code : Code σ) (h : Handle) :
    Heedless (m.take path t code h) := by
  intro w files
  simp only [take, identify_withFiles]
  rcases identify path code h w with ⟨e | ⟨i, who⟩, w'⟩
  · rfl
  · cases vetted : m.vet path t who with
    | error e =>
      simp only [vetted]
      rfl
    | ok =>
      simp only [vetted]
      rfl

namespace Blind

/-- A load of one path does not notice the difference, and leaves one of its kind. -/
theorem load {path : String} {paths : List String} (blind : m.Blind paths R)
    (mem : path ∈ paths) (w : World σ) (files : Files) (related : R w.files files) :
    ∃ files', R (m.load path w).2.2.files files' ∧ m.load path (w.withFiles files) =
      ((m.load path w).1, (m.load path w).2.1, (m.load path w).2.2.withFiles files') := by
  obtain ⟨decided, left⟩ := blind.gate path mem w.files files related
  rcases gate : m.gate.check path w.files with ⟨e | t, fs⟩
  all_goals
    rcases gate' : m.gate.check path files with ⟨decision, fs'⟩
    rw [gate, gate'] at decided left
    dsimp only at decided left
    subst decided
  · rw [load_of_refused gate, load_of_refused (w := w.withFiles files) gate']
    exact ⟨fs', left, rfl⟩
  · have opened := blind.loader path mem fs fs' w.outside left
    cases code : m.loader path fs w.outside with
    | error reason =>
      rw [load_of_unopened gate code,
        load_of_unopened (w := w.withFiles files) gate' (opened.symm.trans code)]
      exact ⟨fs', left, rfl⟩
    | ok code' =>
      have taken := m.take_heedless path t code' ⟨w.handles, path⟩
      rw [load_of_opened gate code,
        load_of_opened (w := w.withFiles files) gate' (opened.symm.trans code)]
      refine ⟨fs', ?_, taken (World.openHandle { w with files := fs } path).2 fs'⟩
      rw [taken.files]
      exact left

/-- A manager that differs in its plugins alone is as blind. -/
theorem after_load {path : String} {paths : List String} (blind : m.Blind (path :: paths) R)
    (w : World σ) : (m.load path w).2.1.Blind paths R := by
  obtain ⟨⟨new, loaded, -⟩, -⟩ := (⟨m, w, path⟩ : Attempt σ).loads
  have manager : (m.load path w).2.1 = { m with plugins := m.plugins ++ new } := loaded
  rw [manager]
  exact ⟨fun p hp => blind.gate p (List.mem_cons_of_mem _ hp),
    fun p hp => blind.loader p (List.mem_cons_of_mem _ hp)⟩

theorem loadEach {paths : List String} (blind : m.Blind paths R) (w : World σ) (files : Files)
    (related : R w.files files) :
    ∃ files', m.loadEach (w.withFiles files) paths =
      ((m.loadEach w paths).1, (m.loadEach w paths).2.1,
        (m.loadEach w paths).2.2.withFiles files') := by
  induction paths generalizing m w files with
  | nil => exact ⟨files, rfl⟩
  | cons path rest ih =>
    obtain ⟨fs, related', first⟩ := blind.load List.mem_cons_self w files related
    have blind' := blind.after_load w
    rcases load : m.load path w with ⟨e | id, m', w'⟩
    all_goals rw [load] at first related' blind'
    · obtain ⟨fs', others⟩ := ih blind' (w'.publish (.pluginError path e.message)) fs related'
      refine ⟨fs', ?_⟩
      rw [loadEach_of_error first, loadEach_of_error load, World.publish_withFiles, others]
    · obtain ⟨fs', others⟩ := ih blind' w' fs related'
      refine ⟨fs', ?_⟩
      rw [loadEach_of_ok first, loadEach_of_ok load, others]

end Blind

end Manager

end blind

/-! ## Starts -/

/-- Where the built-in verifier is used and modules are not opened by what is in files, loads
do not notice what is different at other paths than those of sidecars and of the key. -/
theorem Manager.blind_of_sameAt {σ : Type} {m : Manager σ} {scheme : Signature.Scheme}
    (builtin : m.gate.verifier = Signature.verifierOf scheme) {paths : List String}
    (opens : ∀ path fs fs' outside, m.loader path fs outside = m.loader path fs' outside) :
    m.Blind paths (Files.SameAt (paths.flatMap m.gate.looksAt)) where
  gate path mem fs fs' same := by
    have here : Files.SameAt (m.gate.looksAt path) fs fs' := fun q hq =>
      same q (List.mem_flatMap.mpr ⟨path, mem, hq⟩)
    rw [Gate.check_eq, Gate.check_eq, Gate.decide_files builtin, Gate.decide_files builtin,
      Gate.decide_of_sameAt builtin here]
    exact ⟨rfl, same⟩
  loader path _ fs fs' outside _ := opens path fs fs' outside

namespace Core

variable {σ : Type} {c : Core σ} {w : World σ} {files : Files} {R : Files → Files → Prop}

theorem discover_eq (c : Core σ) (w : World σ) :
    c.newManager.discover c.config.plugins.dir c.config.plugins.extension w =
      c.newManager.loadEach w (c.candidates w) := by
  unfold Manager.discover candidates
  split <;> rfl

/-- The candidates are dealt with in the same way. -/
theorem enroll_alike (blind : c.newManager.Blind (c.candidates w) R) (related : R w.files files)
    (same : c.candidates (w.withFiles files) = c.candidates w) :
    ∃ files', c.enroll (w.withFiles files) =
      ((c.enroll w).1, (c.enroll w).2.1, (c.enroll w).2.2.withFiles files') := by
  obtain ⟨files', loads⟩ := blind.loadEach w files related
  rw [← same, ← discover_eq, same, ← discover_eq] at loads
  have starts := Manager.startAll_heedless
    (c.newManager.discover c.config.plugins.dir c.config.plugins.extension w).2.1
  have ends (m : Manager σ) := m.unloadUnstarted_heedless
  refine ⟨files', ?_⟩
  simp only [enroll, loads, starts _ files', ends _ _ files']

theorem markFirst_world (dir : String) (w : World σ) :
    ∃ files, (markFirst dir w).2 = w.withFiles files := by
  unfold markFirst
  split
  · exact ⟨_, rfl⟩
  · exact ⟨w.files, rfl⟩

/-- Wherever the marker is, and whatever is different in files that loads do not notice, a
start is the same. -/
theorem start_alike (env env' : Environment) (configDir : Option String)
    (stopped : c.running = none) (blind : c.newManager.Blind (c.candidates w) R)
    (related : R w.files files) (same : c.candidates (w.withFiles files) = c.candidates w) :
    Alike (c.start env w) ((c.relocated configDir).start env' (w.withFiles files)) := by
  obtain ⟨fs, enrolled⟩ :=
    enroll_alike (w := w.withBus w.bus.subscribe.2) blind related same
  rw [start_eq_enroll env stopped w,
    start_eq_enroll (c := c.relocated configDir) env' stopped (w.withFiles files)]
  have enrolled' : (c.relocated configDir).enroll
      ((w.withFiles files).withBus (w.withFiles files).bus.subscribe.2) =
        c.enroll ((w.withBus w.bus.subscribe.2).withFiles files) := rfl
  rw [enrolled', enrolled]
  obtain ⟨fs₁, marked⟩ := markFirst_world (c.config.directory env)
    (c.enroll (w.withBus w.bus.subscribe.2)).2.2
  obtain ⟨fs₂, marked'⟩ := markFirst_world ((c.relocated configDir).config.directory env')
    ((c.enroll (w.withBus w.bus.subscribe.2)).2.2.withFiles fs)
  refine ⟨_, _, rfl, rfl, rfl, rfl, rfl, rfl, fs₂, ?_⟩
  rw [marked, marked']
  rfl

end Core

/-! ## A marker that is a key -/

namespace KeyedParrot

/-- A core whose trusted key lies where the marker is, and which starts parrots. -/
def core : Core Unit :=
  { config :=
      { plugins := { requireSignatures := true, trustedKey := some "conf/.initialized" }
        runtime := { configDir := some "conf" } }
    loader := Parrot.loader fun _ => none
    programs := fun _ => none }

/-- A world with a parrot that has a sidecar. -/
def world : World Unit :=
  { Parrot.world 4 with
    files := ⟨.dir [("plugins", .dir [("org.a.so", .file []),
      ("org.a.manifest.json", .file []), ("org.a.manifest.sig", .file [])])], []⟩ }

/-- The errors that a start reports. -/
def errors (r : Except Error Core.Start × Core Unit × World Unit) : Option (List String) :=
  r.1.toOption.map fun s => s.failures.map (·.error.message)

end KeyedParrot

/-- A core is started, shut down and started again, and nothing is different the second time
but that the marker is there. The failures it lists are not the same. -/
theorem marker_is_key :
    let first := KeyedParrot.core.start {} KeyedParrot.world
    let stopped := first.2.1.shutdown first.2.2
    let second := stopped.2.1.start {} stopped.2.2
    (KeyedParrot.errors first, KeyedParrot.errors second) =
      (some ["manifest verification failed for plugins/org.a.so: error: failed to read " ++
          "verification inputs: No such file or directory (os error 2)"],
        some ["manifest verification failed for plugins/org.a.so: invalid: public key is " ++
          "not valid base64"]) := by
  decide +kernel

end PluginHost
