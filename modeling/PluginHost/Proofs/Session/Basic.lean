import PluginHost.Manager.Load
import PluginHost.Manager.Release
import PluginHost.Manager.Run

/-!
# Sessions

A session is the life of a manager: it starts without plugins and is asked for one
thing after another. Between two such actions plugins may use the host from threads of
their own, holders of a grant may ask for more, and all that lies outside the host may
change.

* `Session.run` carries out actions, `Session.finish` drops the manager.
* `Session.tried` keeps every load that was tried, on its own or in a discovery, with
  the manager and the world as they were at that moment.
* `Manager.attempts_path` and `Manager.failures_loadEach`: a discovery tries each
  candidate once, and reports exactly those that failed.
-/

namespace PluginHost

-- Nothing here depends on how paths are taken apart, so reduction stops before it.
attribute [local irreducible] Gate.check Files.present

/-! ## Attempts to load -/

/-- A load that was tried: the manager and the world before it, and the path. -/
structure Attempt (σ : Type) where
  manager : Manager σ
  world : World σ
  path : String

namespace Attempt

variable {σ : Type} (a : Attempt σ)

/-- What the trust gate decided. -/
def check : Except Error Trust :=
  (a.manager.gate.check a.path a.world.files).1

/-- The world once the gate has decided. -/
def checked : World σ :=
  { a.world with files := (a.manager.gate.check a.path a.world.files).2 }

/-- The load itself. -/
def run : Except Error String × Manager σ × World σ :=
  a.manager.load a.path a.world

/-- What the load came to. -/
def result : Except Error String :=
  a.run.1

/-- The handle that the module has, if it is opened. -/
def handle : Handle :=
  ⟨a.world.handles, a.path⟩

/-- The world once the module is opened. -/
def opened : World σ :=
  (a.checked.openHandle a.path).2

/-- The manifest of the module, if the gate verified one. -/
def manifest? : Option Manifest :=
  a.check.toOption.bind Trust.manifest?

/-- The interface of the module and who its own table says it is, if it was opened and
its table is good. -/
def reported? : Option (Interface σ × Metadata) :=
  match a.manager.loader a.path a.checked.files a.checked.outside with
  | .error _ => none
  | .ok code => (Manager.identify a.path code a.handle a.opened).1.toOption

/-- The candidate among the failures of a discovery, if it failed. -/
def failure? : Option Manager.LoadFailure :=
  match a.result with
  | .ok _ => none
  | .error e => some ⟨a.path, e⟩

/-- The plugin came of this load. -/
def Made (p : Managed σ) : Prop :=
  a.result = .ok p.id ∧ a.handle = p.handle

end Attempt

namespace Manager

variable {σ : Type}

/-- The attempts in which candidates are loaded one after the other. -/
def attempts (m : Manager σ) (w : World σ) : List String → List (Attempt σ)
  | [] => []
  | path :: rest =>
    ⟨m, w, path⟩ ::
      match m.load path w with
      | (.ok _, m, w) => m.attempts w rest
      | (.error e, m, w) => m.attempts (w.publish (.pluginError path e.message)) rest

/-- The attempts of a discovery. -/
def attemptsIn (m : Manager σ) (dir extension : String) (w : World σ) : List (Attempt σ) :=
  if w.files.present dir then m.attempts w (w.files.candidates dir extension) else []

/-- The plugin of an open module. -/
def ofHandle? (m : Manager σ) (h : Handle) : Option (Managed σ) :=
  m.plugins.find? fun p => p.handle = h

theorem load_of_refused {m : Manager σ} {w : World σ} {path : String} {e : Error} {files : Files}
    (h : m.gate.check path w.files = (.error e, files)) :
    m.load path w = (.error e, m, { w with files }) := by
  unfold load
  rw [h]

theorem load_of_unopened {m : Manager σ} {w : World σ} {path reason : String} {t : Trust}
    {files : Files} (h : m.gate.check path w.files = (.ok t, files))
    (hcode : m.loader path files w.outside = .error reason) :
    m.load path w = (.error (.moduleOpen path reason), m, { w with files }) := by
  unfold load
  rw [h]
  simp only [hcode]

theorem load_of_opened {m : Manager σ} {w : World σ} {path : String} {t : Trust} {code : Code σ}
    {files : Files} (h : m.gate.check path w.files = (.ok t, files))
    (hcode : m.loader path files w.outside = .ok code) :
    m.load path w =
      m.take path t code ⟨w.handles, path⟩ (World.openHandle { w with files } path).2 := by
  unfold load
  rw [h]
  simp only [hcode]
  rfl

theorem loadEach_nil (m : Manager σ) (w : World σ) : m.loadEach w [] = ({}, m, w) := rfl

theorem loadEach_of_ok {m m' : Manager σ} {w w' : World σ} {path id : String}
    (h : m.load path w = (.ok id, m', w')) (rest : List String) :
    m.loadEach w (path :: rest) =
      ({ (m'.loadEach w' rest).1 with loaded := id :: (m'.loadEach w' rest).1.loaded },
        (m'.loadEach w' rest).2) := by
  show (match m.load path w with | (.ok _, _, _) => _ | (.error _, _, _) => _) = _
  rw [h]

theorem loadEach_of_error {m m' : Manager σ} {w w' : World σ} {path : String} {e : Error}
    (h : m.load path w = (.error e, m', w')) (rest : List String) :
    let after := m'.loadEach (w'.publish (.pluginError path e.message)) rest
    m.loadEach w (path :: rest) =
      ({ after.1 with failures := ⟨path, e⟩ :: after.1.failures }, after.2) := by
  show (match m.load path w with | (.ok _, _, _) => _ | (.error _, _, _) => _) = _
  rw [h]

/-- Every candidate is tried, in order. -/
theorem attempts_path (m : Manager σ) (w : World σ) (paths : List String) :
    (m.attempts w paths).map (·.path) = paths := by
  induction paths generalizing m w with
  | nil => rfl
  | cons path rest ih =>
    rcases hload : m.load path w with ⟨e | id, m', w'⟩
    · simp only [attempts, hload, List.map_cons, ih]
    · simp only [attempts, hload, List.map_cons, ih]

/-- The failures that are reported are those of the attempts. -/
theorem failures_loadEach (m : Manager σ) (w : World σ) (paths : List String) :
    (m.loadEach w paths).1.failures = (m.attempts w paths).filterMap Attempt.failure? := by
  induction paths generalizing m w with
  | nil => rfl
  | cons path rest ih =>
    rcases hload : m.load path w with ⟨e | id, m', w'⟩
    · have failed : Attempt.failure? ⟨m, w, path⟩ = some ⟨path, e⟩ := by
        simp only [Attempt.failure?, Attempt.result, Attempt.run, hload]
      simp only [loadEach_of_error hload, attempts, hload, ih, List.filterMap_cons_some failed]
    · have joined : Attempt.failure? ⟨m, w, path⟩ = none := by
        simp only [Attempt.failure?, Attempt.result, Attempt.run, hload]
      simp only [loadEach_of_ok hload, attempts, hload, ih, List.filterMap_cons_none joined]

end Manager

/-! ## Actions -/

/-- What happens to a manager and its plugins. -/
inductive Action (σ : Type)
  | load (path : String)
  | discover (dir extension : String)
  | start (id : String)
  | startAll
  | dispatch (source : Option String) (type payload : String)
  | unload (id : String)
  | unloadUnstarted
  | shutdown
  /-- The plugin of a module uses its host, outside its hooks. -/
  | use (h : Handle) (t : Hook σ Unit)
  /-- Somebody who was handed the grant of a module's plugin asks for more. The grant of
  a plugin that has gone may still be asked, but it is no plugin's any more. -/
  | request (h : Handle) (m : Mask)
  /-- Files, receivers, the time and the plugins' own state change. -/
  | elapse (files : Files) (bus : Bus Event) (now : Instant) (outside : σ)

/-- A manager, its world, and the loads that were tried so far. -/
structure Session (σ : Type) where
  manager : Manager σ
  world : World σ
  tried : List (Attempt σ) := []

namespace Session

variable {σ : Type}

/-- A manager of the given set-up without plugins, in a world whose journal is empty. -/
def new (m : Manager σ) (w : World σ) : Session σ :=
  { manager := { m with plugins := [] }, world := { w with journal := [] } }

/-- The session with another manager and world. -/
def move (s : Session σ) (next : Manager σ × World σ) : Session σ :=
  { s with manager := next.1, world := next.2 }

/-- The load of a path that is tried next. -/
def attempt (s : Session σ) (path : String) : Attempt σ :=
  ⟨s.manager, s.world, path⟩

/-- The session after one load. -/
def load (s : Session σ) (path : String) : Session σ :=
  { s.move (s.attempt path).run.2 with tried := s.tried ++ [s.attempt path] }

/-- The session after a plugin has used its host. -/
def use (s : Session σ) (p : Managed σ) (t : Hook σ Unit) : Session σ :=
  let (_, caller, w) := t.run s.manager.host p.handle (some p.grant) s.world
  s.move (s.manager.replace { p with grant := Manager.grantAfter p.grant caller }, w)

/-- The session after a request on the grant of a plugin, which is noted like one that
the plugin made. -/
def request (s : Session σ) (p : Managed σ) (m : Mask) : Session σ :=
  let (answer, manager) := s.manager.request p.id m
  s.move (manager, s.world.note (.answered p.handle (.request m) (answer.getD false)))

/-- The session after an action. -/
def act (s : Session σ) : Action σ → Session σ
  | .load path => s.load path
  | .discover dir extension =>
    { s.move (s.manager.discover dir extension s.world).2 with
      tried := s.tried ++ s.manager.attemptsIn dir extension s.world }
  | .start id => s.move (s.manager.start id s.world).2
  | .startAll => s.move (s.manager.startAll s.world).2
  | .dispatch source type payload => s.move (s.manager.dispatch source type payload s.world).2
  | .unload id => s.move (s.manager.unload id s.world).2
  | .unloadUnstarted => s.move (s.manager.unloadUnstarted s.world).2
  | .shutdown => s.move (s.manager.shutdown s.world)
  | .use h t => (s.manager.ofHandle? h).elim s fun p => s.use p t
  | .request h m => (s.manager.ofHandle? h).elim s fun p => s.request p m
  | .elapse files bus now outside => { s with world := { s.world with files, bus, now, outside } }

/-- The session after some actions. -/
def run (s : Session σ) (actions : List (Action σ)) : Session σ :=
  actions.foldl act s

/-- The world once the manager is dropped. -/
def finish (s : Session σ) : World σ :=
  (s.manager.shutdown s.world).2

theorem run_append (s : Session σ) (a b : List (Action σ)) : s.run (a ++ b) = (s.run a).run b :=
  List.foldl_append ..

end Session

/-! ## A plugin that hesitates -/

namespace Hesitant

/-- A plugin that refuses to start until it has been asked before, and then asks for two
capabilities. The state outside the host says whether it has been asked. -/
def table : Table Bool where
  id := some fun _ => some (Utf8.bytesOf "org.hesitant")
  name := some fun _ => some (Utf8.bytesOf "Hesitant")
  version := some fun _ => some (Utf8.bytesOf "1")
  capabilities := some fun _ => 1#64
  start := some fun _ => .read fun before =>
    if before then .ask (.request 3#64) fun _ => .done true else .write true (.done false)
  stop := some (.done ())
  event := some fun _ _ => .ask (.has 1#64) fun _ => .done ()

/-- A session that begins with some files. Every path that is opened holds the plugin. -/
def fresh (gate : Gate) (policy : Policy) (files : List (String × Files.Node)) : Session Bool :=
  .new { loader := fun _ _ _ => .ok (.table table), gate, policy }
    { files := ⟨.dir files, []⟩, bus := { slots := 1 }, now := ⟨⟨2024, 1, 1⟩, 0, 0⟩
      outside := false }

/-- The plugin is started twice, and its module is loaded again while it is running and
after it is unloaded. -/
def actions : List (Action Bool) :=
  [.load "a.so", .start "org.hesitant", .start "org.hesitant", .dispatch none "t" "p",
    .load "a.so", .unload "org.hesitant", .load "b.so"]

end Hesitant

end PluginHost
