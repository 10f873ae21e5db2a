import PluginHost.Proofs.Files.Removal
import PluginHost.Proofs.Session.Offer
import PluginHost.Proofs.Trust.Interference

/-!
# Discoveries

A discovery tries the candidates of a directory one after the other. Whether one of them is
loaded depends on those before it, as it may find its id taken, but only on those which were
loaded: a candidate that fails leaves nothing behind that the others could notice. So it can as
well be removed, if a load of any other still finds the same. That the sidecars of the others
stay is not enough for this (`failures_can_matter`): a candidate that fails may be the trusted
key, or a library that others are opened with.

* `Manager.Sorts` says what becomes of each candidate.
* `Manager.Removes` says that some failures are removed, and `Manager.Spares` that loads of the
  other candidates find the same.
* `Manager.Discovers` is what a discovery comes to.

Results:
1. `Manager.loadEach_sorts`: each candidate is loaded or fails, and an event says so.
2. `Manager.loadEach_without`: those that fail can be left out.
3. `Manager.loadEach_again`: all fail that are tried again.
4. `discovery_sorts_candidates`: discoveries in every session.
5. `failures_can_matter`: what candidates that fail are good for.
-/

namespace PluginHost

-- Nothing here depends on how paths are taken apart, so reduction stops before it.
attribute [local irreducible] Gate.check Files.present Files.read

/-! ## Definitions -/

/-- The plugin without the number of its module, which counts how many were opened before. -/
def Managed.unnumbered {σ : Type} (p : Managed σ) : Managed σ :=
  { p with handle := { p.handle with number := 0 } }

namespace Manager

variable {σ : Type}

/-- `Sorts paths new failures events`: each path goes one of two ways, and the order is kept. Its
plugin is one of the new ones, or it is among the failures, and one event says which. -/
inductive Sorts : List String → List (Managed σ) → List LoadFailure → List Event → Prop
  | nil : Sorts [] [] [] []
  | joins (p : Managed σ) {paths : List String} {new : List (Managed σ)}
      {failures : List LoadFailure} {events : List Event}
      (rest : Sorts paths new failures events) :
      Sorts (p.path :: paths) (p :: new) failures (.pluginLoaded p.id p.version :: events)
  | fails (f : LoadFailure) {paths : List String} {new : List (Managed σ)}
      {failures : List LoadFailure} {events : List Event}
      (rest : Sorts paths new failures events) :
      Sorts (f.path :: paths) new (f :: failures)
        (.pluginError f.path f.error.message :: events)

/-- Two managers are abreast: they are set up alike and have the same plugins, and loads of the
next `paths` find the same. -/
structure Abreast (m : Manager σ) (w : World σ) (m' : Manager σ) (w' : World σ)
    (paths : List String) : Prop where
  setUp : m'.setUp = m.setUp
  plugins : m'.plugins.map Managed.unnumbered = m.plugins.map Managed.unnumbered
  files : ∀ p ∈ paths, m.SameLoad w.outside p w.files w'.files
  outside : w'.outside = w.outside

/-- The paths that a discovery lists as failures. -/
def failing (m : Manager σ) (dir extension : String) (w : World σ) : List String :=
  (m.discover dir extension w).1.failures.map (·.path)

/-- Some of the failures of a discovery are removed from the directory, which leaves `files`. -/
structure Removes (m : Manager σ) (dir extension : String) (w : World σ) (gone : List String)
    (files : Files) : Prop where
  directory : w.files.isDir dir = true
  distinct : gone.Nodup
  failed : gone ⊆ m.failing dir extension w
  removed : w.files.removeEach gone = .ok files

/-- Loads of the other candidates find the same. -/
def Spares (m : Manager σ) (dir extension : String) (w : World σ) (gone : List String)
    (files : Files) : Prop :=
  ∀ p ∈ w.files.candidates dir extension, p ∉ gone → m.SameLoad w.outside p w.files files

/-- What a discovery comes to in the world `w`, where `new` plugins come of it and it publishes
`events`.

* `once` and `tried`: each candidate is tried once, in order.
* `manager` and `loaded`: the new plugins come after the others, and the report lists their ids.
* `sorts`: the plugin of a candidate is new or it is among the failures, and an event says which.
* `fine` and `failed`: so new plugins and failures divide the candidates between them, and both
  are in order.
* `published` and `errors`: nothing else is published, and an error once for each failure.
* `kept`: the files and all that is outside the host stay as they are.
* `removes`: if some of the failures are removed, and loads of the other candidates find the same,
  the same plugins are loaded and managed, and of the failures the others are left.
* `spares`: where modules are opened by their own files, they find the same if their sidecars and
  the trusted key can be read with the same result.
* `again`: after it, a discovery in the same directory loads nothing, all candidates fail, and
  the plugins stay as they are. -/
structure Discovers (m : Manager σ) (dir extension : String) (w : World σ)
    (new : List (Managed σ)) (events : List Event) : Prop where
  once : (w.files.candidates dir extension).Nodup
  tried : (m.attemptsIn dir extension w).map (·.path) = w.files.candidates dir extension
  manager : (m.discover dir extension w).2.1 = { m with plugins := m.plugins ++ new }
  loaded : (m.discover dir extension w).1.loaded = new.map (·.id)
  sorts : Sorts (w.files.candidates dir extension) new
    (m.discover dir extension w).1.failures events
  fine : new.map (·.path) =
    (w.files.candidates dir extension).filter (· ∉ m.failing dir extension w)
  failed : m.failing dir extension w =
    (w.files.candidates dir extension).filter (· ∈ m.failing dir extension w)
  published : (m.discover dir extension w).2.2.bus = w.bus.publishAll events
  errors : (events.filter fun e => e.kind = .pluginError) =
    (m.discover dir extension w).1.failures.map fun f => .pluginError f.path f.error.message
  kept : (m.discover dir extension w).2.2.files = w.files ∧
    (m.discover dir extension w).2.2.outside = w.outside
  removes : ∀ gone files, m.Removes dir extension w gone files →
    m.Spares dir extension w gone files →
      let without := m.discover dir extension { w with files }
      without.1.loaded = (m.discover dir extension w).1.loaded ∧
      without.2.1.plugins.map Managed.unnumbered =
        (m.discover dir extension w).2.1.plugins.map Managed.unnumbered ∧
      without.1.failures.map (·.path) = (m.failing dir extension w).filter (· ∉ gone)
  spares : ∀ gone files, m.Removes dir extension w gone files → m.loader.OwnFile →
    (∀ p ∈ w.files.candidates dir extension, p ∉ gone →
      Files.SameRead (m.gate.looksAt p) w.files files) →
    m.Spares dir extension w gone files
  again : ∀ w' : World σ, w'.files = w.files → w'.outside = w.outside →
    let after := (m.discover dir extension w).2.1
    (after.discover dir extension w').1.loaded = [] ∧
    after.failing dir extension w' = w.files.candidates dir extension ∧
    (after.discover dir extension w').2.1 = after

end Manager

/-! ## Sorting -/

namespace Manager.Sorts

variable {σ : Type} {paths : List String} {new : List (Managed σ)} {failures : List LoadFailure}
  {events : List Event}

theorem failures_subset (sorts : Sorts paths new failures events) :
    failures.map (·.path) ⊆ paths := by
  induction sorts with
  | nil => exact List.Subset.refl _
  | joins p _ ih => exact fun q hq => List.mem_cons_of_mem _ (ih hq)
  | fails f _ ih => exact List.cons_subset_cons _ ih

/-- The errors that are published are those of the failures. -/
theorem errors (sorts : Sorts paths new failures events) :
    (events.filter fun e => e.kind = .pluginError) =
      failures.map fun f => .pluginError f.path f.error.message := by
  induction sorts with
  | nil => rfl
  | joins p _ ih => rw [List.filter_cons_of_neg (by simp [Event.kind]), ih]
  | fails f _ ih => rw [List.filter_cons_of_pos (by simp [Event.kind]), ih, List.map_cons]

/-- Where paths differ, new plugins and failures divide them between them. -/
theorem parts (sorts : Sorts paths new failures events) (distinct : paths.Nodup) :
    new.map (·.path) = paths.filter (· ∉ failures.map (·.path)) ∧
      failures.map (·.path) = paths.filter (· ∈ failures.map (·.path)) := by
  induction sorts with
  | nil => exact ⟨rfl, rfl⟩
  | joins p rest ih =>
    obtain ⟨fresh, distinct⟩ := List.nodup_cons.mp distinct
    obtain ⟨loaded, failed⟩ := ih distinct
    have absent := fun mem => fresh (rest.failures_subset mem)
    rw [List.filter_cons_of_pos (by simpa using absent),
      List.filter_cons_of_neg (by simpa using absent), List.map_cons, ← loaded]
    exact ⟨rfl, failed⟩
  | @fails f paths new failures events rest ih =>
    obtain ⟨fresh, distinct⟩ := List.nodup_cons.mp distinct
    obtain ⟨loaded, failed⟩ := ih distinct
    -- Among the other paths, the first failure makes no difference.
    have others : ∀ q ∈ paths, (q ∈ (f :: failures).map (·.path)) ↔
        q ∈ failures.map (·.path) := by
      intro q hq
      have apart : q ≠ f.path := fun same => fresh (same ▸ hq)
      simp [apart]
    rw [List.filter_cons_of_neg (by simp), List.filter_cons_of_pos (by simp)]
    constructor
    · rw [loaded]
      exact List.filter_congr fun q hq => by rw [decide_eq_decide, others q hq]
    · rw [List.map_cons, failed]
      refine congrArg _ (List.filter_congr fun q hq => ?_)
      rw [← failed, decide_eq_decide]
      exact (others q hq).symm

end Manager.Sorts

/-! ## Candidates one after the other -/

namespace Manager

variable {σ : Type} {m m' : Manager σ} {w w' : World σ} {paths gone : List String}

/-- Each candidate is loaded or fails, and an event says so. -/
theorem loadEach_sorts (m : Manager σ) (w : World σ) (paths : List String) : ∃ new events,
    (m.loadEach w paths).2.1 = { m with plugins := m.plugins ++ new } ∧
    (m.loadEach w paths).1.loaded = new.map (·.id) ∧
    Sorts paths new (m.loadEach w paths).1.failures events ∧
    (m.loadEach w paths).2.2.bus = w.bus.publishAll events := by
  induction paths generalizing m w with
  | nil => exact ⟨[], [], by rw [loadEach_nil, List.append_nil], rfl, .nil, rfl⟩
  | cons path rest ih =>
    have goes := (⟨m, w, path⟩ : Attempt σ).goes
    rcases load : m.load path w with ⟨r, m₁, w₁⟩
    cases goes with
    | @joins t i who _ _ result manager bus =>
      simp only [Attempt.run, load] at result manager bus
      subst result
      obtain ⟨new, events, after, loaded, sorts, published⟩ := ih m₁ w₁
      rw [loadEach_of_ok load]
      refine ⟨newcomer m.policy path t i who ⟨w.handles, path⟩ :: new,
        .pluginLoaded who.id who.version :: events, ?_, by rw [loaded]; rfl,
        .joins (newcomer m.policy path t i who ⟨w.handles, path⟩) sorts, ?_⟩
      · rw [after, manager, List.append_assoc]
        rfl
      · rw [published, bus]
        rfl
    | @fails e result manager bus _ =>
      simp only [Attempt.run, load] at result manager bus
      subst result
      obtain ⟨new, events, after, loaded, sorts, published⟩ :=
        ih m₁ (w₁.publish (.pluginError path e.message))
      rw [loadEach_of_error load]
      refine ⟨new, .pluginError path e.message :: events, by rw [after, manager], loaded,
        .fails ⟨path, e⟩ sorts, ?_⟩
      rw [published, ← bus]
      rfl

/-- No id is given back. -/
theorem loadEach_ids (m : Manager σ) (w : World σ) (paths : List String) :
    m.plugins.map (·.id) ⊆ (m.loadEach w paths).2.1.plugins.map (·.id) := by
  obtain ⟨new, events, after, -, -, -⟩ := m.loadEach_sorts w paths
  rw [after, List.map_append]
  exact List.subset_append_left _ _

/-- The first path is tried, and then the others. An error that is published in between makes no
difference to them. -/
theorem loadEach_cons (m : Manager σ) (w : World σ) (path : String) (rest : List String) :
    let first := m.load path w
    ∃ w₁, w₁.files = first.2.2.files ∧ w₁.outside = first.2.2.outside ∧
      (m.loadEach w (path :: rest)).2 = (first.2.1.loadEach w₁ rest).2 ∧
      (m.loadEach w (path :: rest)).1.loaded =
        first.1.toOption.toList ++ (first.2.1.loadEach w₁ rest).1.loaded ∧
      (m.loadEach w (path :: rest)).1.failures.map (·.path) =
        (if first.1.toOption = none then [path] else []) ++
          (first.2.1.loadEach w₁ rest).1.failures.map (·.path) := by
  rcases load : m.load path w with ⟨e | id, m₁, w₁⟩
  · rw [loadEach_of_error load]
    exact ⟨w₁.publish (.pluginError path e.message), rfl, rfl, rfl, rfl, rfl⟩
  · rw [loadEach_of_ok load]
    exact ⟨w₁, rfl, rfl, rfl, rfl, rfl⟩

/-- Loads change nothing that later ones look at. -/
theorem loadEach_kept (steady : m.gate.verifier.Steady) (w : World σ) (paths : List String) :
    (m.loadEach w paths).2.2.files = w.files ∧
      (m.loadEach w paths).2.2.outside = w.outside := by
  induction paths generalizing m w with
  | nil => exact ⟨rfl, rfl⟩
  | cons path rest ih =>
    let a : Attempt σ := ⟨m, w, path⟩
    obtain ⟨w₁, files₁, outside₁, others, -, -⟩ := m.loadEach_cons w path rest
    obtain ⟨files, outside⟩ := a.kept_of_steady steady
    obtain ⟨files', outside'⟩ := ih (steady_of_setUp steady a.run_setUp) w₁
    rw [others]
    exact ⟨files'.trans (files₁.trans files), outside'.trans (outside₁.trans outside)⟩

namespace Abreast

variable {path : String}

theorem ids (abreast : Abreast m w m' w' paths) :
    m'.plugins.map (·.id) = m.plugins.map (·.id) := by
  have ids := congrArg (List.map Managed.id) abreast.plugins
  rw [List.map_map, List.map_map] at ids
  exact ids

/-- Nothing matters of the worlds but their files and what is outside. -/
theorem congr {w₁ w₁' : World σ} (abreast : Abreast m w m' w' paths)
    (files : w₁.files = w.files) (outside : w₁.outside = w.outside)
    (files' : w₁'.files = w'.files) (outside' : w₁'.outside = w'.outside) :
    Abreast m w₁ m' w₁' paths := by
  obtain ⟨setUp, plugins, loads, same⟩ := abreast
  refine ⟨setUp, plugins, ?_, outside'.trans (same.trans outside.symm)⟩
  rwa [files, files', outside]

/-- A load that fails for one of them makes no difference. -/
theorem fails (abreast : Abreast m w m' w' paths) (steady : m.gate.verifier.Steady)
    (failed : (m.load path w).1.toOption = none) :
    Abreast (m.load path w).2.1 (m.load path w).2.2 m' w' paths := by
  obtain ⟨files, outside⟩ := Attempt.kept_of_steady (a := ⟨m, w, path⟩) steady
  cases (⟨m, w, path⟩ : Attempt σ).goes with
  | joins _ _ result _ _ =>
    rw [Attempt.run] at result
    rw [result] at failed
    cases failed
  | fails _ manager _ _ =>
    rw [Attempt.run] at manager files outside
    rw [manager]
    exact abreast.congr files outside rfl rfl

/-- The next path comes to the same for both, and they stay abreast. -/
theorem tries (abreast : Abreast m w m' w' (path :: paths)) (steady : m.gate.verifier.Steady) :
    (m'.load path w').1.toOption = (m.load path w).1.toOption ∧
      Abreast (m.load path w).2.1 (m.load path w).2.2 (m'.load path w').2.1
        (m'.load path w').2.2 paths := by
  obtain ⟨here, later⟩ := List.forall_mem_cons.mp abreast.files
  have alike : Attempt.Alike ⟨m, w, path⟩ ⟨m', w', path⟩ :=
    ⟨abreast.setUp, rfl, here, abreast.outside⟩
  have steady' := steady_of_setUp steady abreast.setUp
  obtain ⟨-, -, policy, -⟩ := setUp_eq_iff.mp abreast.setUp
  obtain ⟨files, outside⟩ := Attempt.kept_of_steady (a := ⟨m, w, path⟩) steady
  obtain ⟨files', outside'⟩ := Attempt.kept_of_steady (a := ⟨m', w', path⟩) steady'
  have setUp := (⟨m, w, path⟩ : Attempt σ).run_setUp
  have setUp' := (⟨m', w', path⟩ : Attempt σ).run_setUp
  simp only [Attempt.run] at files files' outside outside' setUp setUp'
  have next (plugins : (m'.load path w').2.1.plugins.map Managed.unnumbered =
      (m.load path w).2.1.plugins.map Managed.unnumbered) :
      Abreast (m.load path w).2.1 (m.load path w).2.2 (m'.load path w').2.1
        (m'.load path w').2.2 paths := by
    refine ⟨setUp'.trans (abreast.setUp.trans setUp.symm), plugins, fun p hp => ?_, ?_⟩
    · rw [files, files', outside]
      exact (later p hp).of_setUp setUp
    · exact outside'.trans (abreast.outside.trans outside.symm)
  -- What the module offers is the same, and the id is free for both or for none.
  have ids := abreast.ids
  cases (⟨m, w, path⟩ : Attempt σ).goes with
  | joins offers free result manager _ =>
    cases (⟨m', w', path⟩ : Attempt σ).goes with
    | joins offers' _ result' manager' _ =>
      obtain ⟨rfl, rfl, rfl⟩ := ((alike.offers steady).mp offers').unique offers
      simp only [Attempt.run] at result result' manager manager'
      rw [result, result']
      refine ⟨rfl, next ?_⟩
      rw [manager, manager', List.map_append, List.map_append, abreast.plugins, policy]
      rfl
    | fails _ _ _ taken' =>
      exact absurd (ids ▸ taken' _ _ _ ((alike.offers steady).mpr offers)) free
  | fails result manager _ taken =>
    cases (⟨m', w', path⟩ : Attempt σ).goes with
    | joins offers' free' _ _ _ =>
      exact absurd (ids ▸ taken _ _ _ ((alike.offers steady).mp offers')) free'
    | fails result' manager' _ _ =>
      simp only [Attempt.run] at result result' manager manager'
      rw [result, result']
      exact ⟨rfl, next (by rw [manager, manager', abreast.plugins])⟩

end Abreast

/-- Candidates that fail can be left out: the others come to the same. -/
theorem loadEach_without (steady : m.gate.verifier.Steady)
    (abreast : Abreast m w m' w' (paths.filter (· ∉ gone))) (distinct : paths.Nodup)
    (failing : ∀ p ∈ paths, p ∈ gone → p ∈ (m.loadEach w paths).1.failures.map (·.path)) :
    let without := m'.loadEach w' (paths.filter (· ∉ gone))
    without.1.loaded = (m.loadEach w paths).1.loaded ∧
      without.2.1.plugins.map Managed.unnumbered =
        (m.loadEach w paths).2.1.plugins.map Managed.unnumbered ∧
      without.1.failures.map (·.path) =
        ((m.loadEach w paths).1.failures.map (·.path)).filter (· ∉ gone) := by
  induction paths generalizing m m' w w' with
  | nil => exact ⟨rfl, abreast.plugins, rfl⟩
  | cons path rest ih =>
    obtain ⟨fresh, distinct⟩ := List.nodup_cons.mp distinct
    have steady₁ : (m.load path w).2.1.gate.verifier.Steady :=
      steady_of_setUp steady (⟨m, w, path⟩ : Attempt σ).run_setUp
    obtain ⟨w₁, files, outside, after, loaded, failures⟩ := m.loadEach_cons w path rest
    dsimp only
    rw [failures] at failing ⊢
    -- Another path that fails does so later, also if this one fails.
    have later : ∀ p ∈ rest, p ∈ gone →
        p ∈ ((m.load path w).2.1.loadEach w₁ rest).1.failures.map (·.path) := by
      intro p hp mem
      refine (List.mem_append.mp (failing p (List.mem_cons_of_mem _ hp) mem)).resolve_left ?_
      have apart : p ≠ path := fun same => fresh (same ▸ hp)
      split <;> simp [apart]
    by_cases leaves : path ∈ gone
    · rw [List.filter_cons_of_neg (by simpa using leaves)] at abreast ⊢
      -- A path that is loaded is not among the failures, as it is tried once.
      have failed : (m.load path w).1.toOption = none := by
        refine Classical.byContradiction fun ok => fresh ?_
        have listed := failing path List.mem_cons_self leaves
        rw [if_neg ok, List.nil_append] at listed
        obtain ⟨new, events, -, -, sorts, -⟩ := (m.load path w).2.1.loadEach_sorts w₁ rest
        exact sorts.failures_subset listed
      have abreast₁ := (abreast.fails steady failed).congr files outside rfl rfl
      obtain ⟨loaded', plugins, failures'⟩ := ih steady₁ abreast₁ distinct later
      rw [loaded, failed, after, if_pos rfl]
      refine ⟨loaded', plugins, ?_⟩
      rw [failures', List.singleton_append, List.filter_cons_of_neg (by simpa using leaves)]
    · rw [List.filter_cons_of_pos (by simpa using leaves)] at abreast ⊢
      obtain ⟨w₁', files', outside', after', loaded', failures'⟩ :=
        m'.loadEach_cons w' path (rest.filter (· ∉ gone))
      obtain ⟨results, next⟩ := abreast.tries steady
      have abreast₁ := next.congr files outside files' outside'
      obtain ⟨others, plugins, others'⟩ := ih steady₁ abreast₁ distinct later
      rw [loaded, loaded', failures', after, after', results, others, others']
      refine ⟨rfl, plugins, ?_⟩
      rw [List.filter_append]
      split <;> simp [leaves]

/-- All candidates fail that are tried again. -/
theorem loadEach_again (steady : m.gate.verifier.Steady) (setUp : m'.setUp = m.setUp)
    (files : w'.files = w.files) (outside : w'.outside = w.outside)
    (known : (m.loadEach w paths).2.1.plugins.map (·.id) ⊆ m'.plugins.map (·.id)) :
    (m'.loadEach w' paths).1.loaded = [] ∧
      (m'.loadEach w' paths).1.failures.map (·.path) = paths ∧
      (m'.loadEach w' paths).2.1 = m' := by
  induction paths generalizing m w w' with
  | nil => exact ⟨rfl, rfl, rfl⟩
  | cons path rest ih =>
    let a : Attempt σ := ⟨m, w, path⟩
    let b : Attempt σ := ⟨m', w', path⟩
    have alike : a.Alike b := ⟨setUp, rfl, files ▸ .refl m w.outside path w.files, outside⟩
    obtain ⟨w₁, files₁, outside₁, others, -, -⟩ := m.loadEach_cons w path rest
    rw [others] at known
    cases b.goes with
    | joins offers free _ _ _ =>
      -- What is offered now was offered then, so the id is taken by now.
      have taken := ((alike.offers steady).mp offers).taken
      exact absurd (known (loadEach_ids _ _ _ taken)) free
    | @fails e result manager _ _ =>
      obtain ⟨keptFiles, keptOutside⟩ := a.kept_of_steady steady
      obtain ⟨keptFiles', keptOutside'⟩ := b.kept_of_steady (steady_of_setUp steady setUp)
      obtain ⟨w₁', files₁', outside₁', others', loaded', failures'⟩ := m'.loadEach_cons w' path rest
      simp only [b, Attempt.run] at result manager keptFiles' keptOutside'
      rw [manager] at others' loaded' failures'
      have setUp₁ : m'.setUp = (m.load path w).2.1.setUp := setUp.trans a.run_setUp.symm
      have sameFiles : w₁'.files = w₁.files := by
        rw [files₁', keptFiles', files, files₁]
        exact keptFiles.symm
      have sameOutside : w₁'.outside = w₁.outside := by
        rw [outside₁', keptOutside', outside, outside₁]
        exact keptOutside.symm
      obtain ⟨loaded, failures, kept⟩ :=
        ih (steady_of_setUp steady a.run_setUp) setUp₁ sameFiles sameOutside known
      rw [loaded', failures', others', result, loaded, failures]
      exact ⟨rfl, rfl, kept⟩

end Manager

/-! ## Discoveries -/

namespace Manager

variable {σ : Type}

/-- A directory that does not exist has no candidates, so it is no exception. -/
theorem discover_eq (m : Manager σ) (dir extension : String) (w : World σ) :
    m.discover dir extension w = m.loadEach w (w.files.candidates dir extension) ∧
      m.attemptsIn dir extension w = m.attempts w (w.files.candidates dir extension) := by
  unfold discover attemptsIn
  cases present : w.files.present dir with
  | true => exact ⟨rfl, rfl⟩
  | false =>
    rw [Files.candidates_of_absent present]
    exact ⟨rfl, rfl⟩

end Manager

namespace Manager

variable {σ : Type} {m : Manager σ} {w : World σ} {dir extension : String} {gone : List String}
  {files : Files}

/-- The other candidates of the directory are left. -/
theorem Removes.without (removes : m.Removes dir extension w gone files)
    (proper : w.files.root.Proper) : w.files.Without dir gone files := by
  obtain ⟨new, events, -, -, sorts, -⟩ :=
    m.loadEach_sorts w (w.files.candidates dir extension)
  rw [← (m.discover_eq dir extension w).1] at sorts
  exact Files.without_of_removeEach proper removes.directory removes.distinct
    (fun p hp => List.mem_of_mem_filter (sorts.failures_subset (removes.failed hp)))
    removes.removed

/-- Where modules are opened by their own files, these are left. -/
theorem Removes.spares (removes : m.Removes dir extension w gone files)
    (proper : w.files.root.Proper) (own : m.loader.OwnFile)
    (looks : ∀ p ∈ w.files.candidates dir extension, p ∉ gone →
      Files.SameRead (m.gate.looksAt p) w.files files) :
    m.Spares dir extension w gone files := by
  intro p hp stays
  have node := (removes.without proper).others p (List.mem_of_mem_filter hp) stays
  exact .of_ownFile own (looks p hp stays) (by rw [Files.read, Files.read, node])

/-- Without some of the failures, a discovery comes to the same. -/
theorem Removes.discover (removes : m.Removes dir extension w gone files)
    (proper : w.files.root.Proper) (steady : m.gate.verifier.Steady)
    (spares : m.Spares dir extension w gone files) :
    let without := m.discover dir extension { w with files }
    without.1.loaded = (m.discover dir extension w).1.loaded ∧
      without.2.1.plugins.map Managed.unnumbered =
        (m.discover dir extension w).2.1.plugins.map Managed.unnumbered ∧
      without.1.failures.map (·.path) = (m.failing dir extension w).filter (· ∉ gone) := by
  have abreast : Abreast m w m { w with files }
      ((w.files.candidates dir extension).filter (· ∉ gone)) := by
    refine ⟨rfl, rfl, fun p hp => ?_, rfl⟩
    obtain ⟨listed, stays⟩ := List.mem_filter.mp hp
    exact spares p listed (by simpa using stays)
  have failed := removes.failed
  unfold failing at failed ⊢
  rw [(m.discover_eq dir extension w).1] at failed ⊢
  rw [(m.discover_eq dir extension { w with files }).1,
    (removes.without proper).candidates extension]
  exact loadEach_without steady abreast (Files.nodup_candidates proper dir extension)
    fun p _ hp => failed hp

/-- After a discovery, all candidates fail that are tried again. -/
theorem discover_again (steady : m.gate.verifier.Steady) {w' : World σ}
    (files : w'.files = w.files) (outside : w'.outside = w.outside) :
    let after := (m.discover dir extension w).2.1
    (after.discover dir extension w').1.loaded = [] ∧
      after.failing dir extension w' = w.files.candidates dir extension ∧
      (after.discover dir extension w').2.1 = after := by
  obtain ⟨new, events, manager, -, -, -⟩ :=
    m.loadEach_sorts w (w.files.candidates dir extension)
  intro after
  have setUp : after.setUp = m.setUp := by
    rw [show after = _ from congrArg (·.2.1) (m.discover_eq dir extension w).1, manager]
    rfl
  unfold failing
  rw [(after.discover_eq dir extension w').1, files]
  refine loadEach_again steady setUp files outside ?_
  rw [← (m.discover_eq dir extension w).1]
  exact List.Subset.refl _

/-- What a discovery comes to. -/
theorem discovers (steady : m.gate.verifier.Steady) (proper : w.files.root.Proper)
    (dir extension : String) : ∃ new events, m.Discovers dir extension w new events := by
  obtain ⟨same, attempts⟩ := m.discover_eq dir extension w
  have once := Files.nodup_candidates proper dir extension
  obtain ⟨new, events, manager, loaded, sorts, published⟩ :=
    m.loadEach_sorts w (w.files.candidates dir extension)
  have kept := loadEach_kept steady w (w.files.candidates dir extension)
  rw [← same] at manager loaded sorts published kept
  obtain ⟨fine, failed⟩ := sorts.parts once
  refine ⟨new, events, ?_⟩
  constructor
  case once => exact once
  case tried =>
    rw [attempts]
    exact m.attempts_path w _
  case manager => exact manager
  case loaded => exact loaded
  case sorts => exact sorts
  case fine => exact fine
  case failed => exact failed
  case published => exact published
  case errors => exact sorts.errors
  case kept => exact kept
  case removes => exact fun gone files removes => removes.discover proper steady
  case spares => exact fun gone files removes => removes.spares proper
  case again => exact fun w' files outside => discover_again steady files outside

end Manager

/-- What a discovery comes to, in every session. -/
theorem discovery_sorts_candidates {σ : Type} (m : Manager σ) (w : World σ)
    (actions : List (Action σ)) (dir extension : String) (steady : m.gate.verifier.Steady)
    (proper : ((Session.new m w).run actions).world.files.root.Proper) :
    let s := (Session.new m w).run actions
    ∃ new events, s.manager.Discovers dir extension s.world new events := by
  have setUp := (Session.run_traced m w actions).2.setUp
  exact Manager.discovers (Manager.steady_of_setUp steady setUp) proper dir extension

/-! ## Candidates of a directory -/

namespace Parrot

/-- A loader for which an empty file holds a parrot, and no other does. -/
def picky : Loader Unit := fun path fs outside =>
  match fs.read path with
  | .ok [] => loader polite path fs outside
  | _ => .error "no parrot"

theorem picky_ownFile : picky.OwnFile := by
  intro path fs fs' outside same
  have read := same path (List.mem_singleton.mpr rfl)
  simp only [picky, read]
  rfl

/-- A directory with some files in it, and one below it. -/
def nest : Files :=
  ⟨.dir [("plugins", .dir [("egg.so", .file [0]), ("org.a.so", .file []),
    ("sub", .dir [("org.a.so", .file []), ("org.b.so", .file [])])])], []⟩

/-- The directory without two of them. -/
def sparse : Files :=
  ⟨.dir [("plugins", .dir [("org.a.so", .file []), ("sub", .dir [("org.b.so", .file [])])])], []⟩

theorem proper_nest : nest.root.Proper := by
  have file (data : List UInt8) := Files.Node.Proper.file data
  have sub : Files.Node.Proper (.dir [("org.a.so", .file []), ("org.b.so", .file [])]) :=
    .dir (by decide) (by decide +kernel) (by simp [file])
  have plugins : Files.Node.Proper (.dir [("egg.so", .file [0]), ("org.a.so", .file []),
      ("sub", .dir [("org.a.so", .file []), ("org.b.so", .file [])])]) :=
    .dir (by decide) (by decide +kernel) (by simp [file, sub])
  exact .dir (by decide) (by decide +kernel) (by simp [plugins])

end Parrot

/-- Of four candidates one holds no parrot, the ids of two are taken, and one is loaded. The
first two of them can go. -/
theorem parrots_are_sorted :
    let m : Manager Unit := { loader := Parrot.picky }
    let s := (Session.new m { Parrot.world 4 with files := Parrot.nest }).run
      [.load "plugins/sub/org.b.so"]
    (∃ new events, s.manager.Discovers "plugins" "so" s.world new events) ∧
      (s.manager.discover "plugins" "so" s.world).1.loaded = ["org.a"] ∧
      s.manager.failing "plugins" "so" s.world =
        ["plugins/egg.so", "plugins/sub/org.a.so", "plugins/sub/org.b.so"] ∧
      s.manager.Removes "plugins" "so" s.world ["plugins/egg.so", "plugins/sub/org.a.so"]
        Parrot.sparse ∧
      (s.manager.discover "plugins" "so" { s.world with files := Parrot.sparse }).1.loaded =
        ["org.a"] ∧
      s.manager.failing "plugins" "so" { s.world with files := Parrot.sparse } =
        ["plugins/sub/org.b.so"] := by
  intro m s
  have steady : m.gate.verifier.Steady := Signature.verifierOf_steady Ed25519.verify
  have files : s.world.files = Parrot.nest :=
    (Attempt.kept_of_steady (a := ⟨m, { Parrot.world 4 with files := Parrot.nest },
      "plugins/sub/org.b.so"⟩) steady).1
  obtain ⟨new, events, discovers⟩ := discovery_sorts_candidates m _
    [.load "plugins/sub/org.b.so"] "plugins" "so" steady (files.symm ▸ Parrot.proper_nest)
  have loaded : (s.manager.discover "plugins" "so" s.world).1.loaded = ["org.a"] := by
    decide +kernel
  have failing : s.manager.failing "plugins" "so" s.world =
      ["plugins/egg.so", "plugins/sub/org.a.so", "plugins/sub/org.b.so"] := by decide +kernel
  have removes : s.manager.Removes "plugins" "so" s.world
      ["plugins/egg.so", "plugins/sub/org.a.so"] Parrot.sparse := by
    refine ⟨by decide +kernel, by decide, ?_, files.symm ▸ rfl⟩
    rw [failing]
    decide
  have looks : ∀ p ∈ Parrot.nest.candidates "plugins" "so",
      p ∉ ["plugins/egg.so", "plugins/sub/org.a.so"] →
        Files.SameRead (s.manager.gate.looksAt p) Parrot.nest Parrot.sparse := by
    unfold Files.SameRead
    decide +kernel
  have own : s.manager.loader.OwnFile :=
    (Manager.setUp_eq_iff.mp (Session.run_traced m _ _).2.setUp).1 ▸ Parrot.picky_ownFile
  have spares := discovers.spares _ _ removes own (files.symm ▸ looks)
  obtain ⟨same, -, others⟩ := discovers.removes _ _ removes spares
  refine ⟨⟨new, events, discovers⟩, loaded, failing, removes, same.trans loaded, ?_⟩
  rw [failing] at others
  exact others.trans (by decide)

/-- Whatever failures are removed, the same is loaded if the sidecars of the others stay. -/
def Manager.SidecarsSuffice {σ : Type} (m : Manager σ) (dir extension : String) (w : World σ) :
    Prop :=
  ∀ gone files, m.Removes dir extension w gone files →
    (∀ p ∈ w.files.candidates dir extension, p ∉ gone → Files.SameRead
      [(Sidecar.ofModule p).manifest, (Sidecar.ofModule p).signature] w.files files) →
    (m.discover dir extension { w with files }).1.loaded = (m.discover dir extension w).1.loaded

namespace Parrot

/-- A signed parrot with its sidecar. -/
def signed : List (String × Files.Node) :=
  [("a.b.manifest.json", .file Swapped.signed), ("a.b.manifest.sig", .file Swapped.signature),
    ("a.b.so", .file [])]

/-- The key that it was signed with lies beside it, and is called like a module. -/
def keyed : Files :=
  ⟨.dir [("plugins", .dir (signed ++ [("k.so", .file Swapped.key)]))], []⟩

theorem proper_keyed : keyed.root.Proper := by
  have file (data : List UInt8) := Files.Node.Proper.file data
  have plugins : Files.Node.Proper (.dir (signed ++ [("k.so", .file Swapped.key)])) :=
    .dir (by decide) (by decide +kernel) (by simp [signed, file])
  exact .dir (by decide) (by decide +kernel) (by simp [plugins])

/-- A loader for which parrots come of an egg: it is a library that they are opened with, and no
plugin itself. -/
def hatching : Loader Unit := fun path fs outside =>
  if Path.stem? path = some "egg" then .ok .noEntry
  else match fs.read "plugins/egg.so" with
    | .ok _ => loader polite path fs outside
    | .error _ => .error Native.nothingFound

end Parrot

/-- It is not enough that the sidecars of the others stay. The trusted key may be a candidate that
fails, and without it nothing is loaded that is signed; or a library may be one. -/
theorem failures_can_matter :
    (let m : Manager Unit :=
      { loader := Parrot.picky, gate := ⟨Signature.ed25519, some "plugins/k.so", false⟩ }
    let w := { Parrot.world 4 with files := Parrot.keyed }
    m.gate.verifier.Steady ∧ w.files.root.Proper ∧ m.failing "plugins" "so" w = ["plugins/k.so"] ∧
      ¬ m.SidecarsSuffice "plugins" "so" w) ∧
    (let m : Manager Unit := { loader := Parrot.hatching }
    let w := { Parrot.world 4 with files := Parrot.nest }
    m.gate.verifier.Steady ∧ w.files.root.Proper ∧
      m.failing "plugins" "so" w = ["plugins/egg.so", "plugins/sub/org.a.so"] ∧
      ¬ m.SidecarsSuffice "plugins" "so" w) := by
  constructor
  case left =>
    intro m w
    have failing : m.failing "plugins" "so" w = ["plugins/k.so"] := by decide +kernel
    refine ⟨Signature.verifierOf_steady Ed25519.verify, Parrot.proper_keyed, failing,
      fun suffice => ?_⟩
    have removes : m.Removes "plugins" "so" w ["plugins/k.so"]
        ⟨.dir [("plugins", .dir Parrot.signed)], []⟩ :=
      ⟨by decide +kernel, by decide, by rw [failing]; decide, rfl⟩
    have same := suffice _ _ removes (by unfold Files.SameRead; decide +kernel)
    exact absurd same (by decide +kernel)
  case right =>
    intro m w
    have failing : m.failing "plugins" "so" w = ["plugins/egg.so", "plugins/sub/org.a.so"] := by
      decide +kernel
    refine ⟨Signature.verifierOf_steady Ed25519.verify, Parrot.proper_nest, failing,
      fun suffice => ?_⟩
    have removes : m.Removes "plugins" "so" w ["plugins/egg.so", "plugins/sub/org.a.so"]
        Parrot.sparse :=
      ⟨by decide +kernel, by decide, by rw [failing]; decide, rfl⟩
    have same := suffice _ _ removes (by unfold Files.SameRead; decide +kernel)
    exact absurd same (by decide +kernel)

end PluginHost
