import PluginHost.Proofs.Core.Marker
import PluginHost.Proofs.Session.Lifecycle

/-!
# The life of a core

A core may be started, pumped and shut down again and again, in any order, while things change
around it. What is out of place is refused and does nothing: a start while it runs, a pump or
a shutdown while it does not.

* `Core.operate` is one operation, and `Core.operateAll` are some in a row.
* `Core.InOrder` is what holds between operations: the modules that are open are those of the
  plugins that the core manages.

Results:
1. `Core.refused_running` and `Core.refused_stopped`: what is out of place does nothing.
2. `Core.operate_inOrder`: every operation keeps the core in order.
3. `starts_account_for_candidates`: whenever a core is started, each candidate ends in one of
   the lists of the report, whatever the marker of the first run is.
-/

namespace PluginHost

-- Nothing here depends on how paths are taken apart, so reduction stops before it.
attribute [local irreducible] Gate.check Files.present

/-! ## Definitions -/

/-- What is done with a core, and what happens around it. -/
inductive Core.Operation (σ : Type)
  | start (env : Environment)
  | pump (fuel : Nat)
  | shutdown
  /-- Something is done with the manager of a core that runs. -/
  | act (a : Action σ)
  /-- Files, receivers, the time and the plugins' own state change. -/
  | elapse (files : Files) (bus : Bus Event) (now : Instant) (outside : σ)

namespace Core

variable {σ : Type}

/-- A core and its world after an operation, unless it is a pump that does not return. -/
def operate (c : Core σ) (w : World σ) : Operation σ → Option (Core σ × World σ)
  | .start env => some (c.start env w).2
  | .pump fuel => (c.pump fuel w).map (·.2)
  | .shutdown => some (c.shutdown w).2
  | .act a =>
    match c.running with
    | none => some (c, w)
    | some r =>
      let s := (⟨r.manager, w, []⟩ : Session σ).act a
      some ({ c with running := some { r with manager := s.manager } }, s.world)
  | .elapse files bus now outside => some (c, { w with files, bus, now, outside })

/-- A core and its world after some operations. -/
def operateAll (c : Core σ) (w : World σ) : List (Operation σ) → Option (Core σ × World σ)
  | [] => some (c, w)
  | o :: rest => (c.operate w o).bind fun (c, w) => c.operateAll w rest

/-- The session that a core and its world are. A core that does not run has no plugins. -/
def session (c : Core σ) (w : World σ) : Session σ :=
  ⟨c.manager?.getD c.newManager, w, []⟩

/-- Between operations, the modules are where the plugins of the core say. -/
structure InOrder (c : Core σ) (w : World σ) : Prop where
  valid : (c.session w).Valid
  orderly : (c.session w).Orderly

/-- A start in the world `w` accounts for its candidates.

* `begins`: it succeeds, each attempt shows in one list of the report, and there are as many
  of them as there are candidates.
* `moved`: another place of the marker makes no difference.
* `unnoticed`: nor does the marker, or whatever else is different in files, where the search
  for candidates and the loads do not notice. -/
structure AccountsFor (c : Core σ) (env : Environment) (w : World σ) : Prop where
  begins : ∃ report r δ, (c.start env w).1 = .ok report ∧
    (c.start env w).2.1 = { c with running := some r } ∧
    (c.start env w).2.2.journal = w.journal ++ δ ∧ c.Begun w report r.manager δ ∧
    (∀ a ∈ c.attempts w, ∃! fate, a.Shows report fate) ∧
    report.started.length + report.refused.length + report.failures.length =
      (c.candidates w).length
  moved : ∀ configDir env', Alike (c.start env w) ((c.relocated configDir).start env' w)
  unnoticed : ∀ R files, c.newManager.Blind (c.candidates w) R → R w.files files →
    c.candidates (w.withFiles files) = c.candidates w → ∀ configDir env',
      Alike (c.start env w) ((c.relocated configDir).start env' (w.withFiles files))

end Core

/-! ## What is out of place -/

namespace Core

variable {σ : Type} {c : Core σ} {w : World σ}

/-- A core that runs is not started again. -/
theorem refused_running (running : c.isRunning = true) (env : Environment) :
    c.start env w = (.error .alreadyRunning, c, w) := by
  obtain ⟨r, hr⟩ := Option.isSome_iff_exists.mp running
  rw [start, hr]

/-- A core that does not run is not pumped, not shut down, and not released. -/
theorem refused_stopped (stopped : c.isRunning = false) :
    (∀ fuel, c.pump fuel w = some (.error .notRunning, c, w)) ∧
      c.shutdown w = (.error .notRunning, c, w) ∧ c.close w = w := by
  have none : c.running = none :=
    Option.isNone_iff_eq_none.mp (Option.isSome_eq_false_iff.mp stopped)
  have refused : c.shutdown w = (.error .notRunning, c, w) := by rw [shutdown, none]
  refine ⟨fun fuel => ?_, refused, ?_⟩
  · rw [pump, none]
  · rw [close, refused]

end Core

/-! ## Operations -/

namespace Session

variable {σ : Type} {s s' : Session σ}

/-- Steps keep the modules where they should be. -/
theorem steps_orderly (valid : s.Valid) (orderly : s.Orderly) (steps : Steps s s') :
    s'.Valid ∧ s'.Orderly :=
  ⟨steps.valid valid, steps_induction (fun _ _ v step o => step.orderly v o) valid steps orderly⟩

/-- Whether modules are where they should be is told by the plugins and the journal. -/
theorem congr_orderly (valid : s.Valid) (orderly : s.Orderly)
    (plugins : s'.manager.plugins = s.manager.plugins)
    (journal : s'.world.journal = s.world.journal) (handles : s'.world.handles = s.world.handles) :
    s'.Valid ∧ s'.Orderly := by
  obtain ⟨ids, modules, managed, noted⟩ := valid
  obtain ⟨managed', gone⟩ := orderly
  rw [← plugins] at ids modules managed managed' gone
  rw [← handles] at managed noted
  rw [← journal] at noted managed' gone
  exact ⟨⟨ids, modules, managed, noted⟩, ⟨managed', gone⟩⟩

end Session

namespace Core

variable {σ : Type} {c c' : Core σ} {w w' : World σ} {r r' : Running σ}

namespace InOrder

theorem of_session {s : Session σ} (kept : s.Valid ∧ s.Orderly)
    (plugins : (c.session w).manager.plugins = s.manager.plugins)
    (journal : w.journal = s.world.journal) (handles : w.handles = s.world.handles) :
    c.InOrder w := by
  obtain ⟨valid, orderly⟩ : (c.session w).Valid ∧ (c.session w).Orderly :=
    Session.congr_orderly kept.1 kept.2 plugins journal handles
  exact ⟨valid, orderly⟩

/-- A core that was never started, in a world where no module was opened. -/
theorem new (c : Core σ) (w : World σ) :
    InOrder { c with running := none } { w with journal := [] } := by
  refine ⟨?_, ?_⟩
  · exact ⟨List.nodup_nil, List.nodup_nil, by simp [session, manager?, newManager],
      by simp [session]⟩
  · exact ⟨by simp [session, manager?, newManager], fun _ _ => .inl rfl⟩

end InOrder

theorem start_inOrder (inOrder : c.InOrder w) (env : Environment) :
    (c.start env w).2.1.InOrder (c.start env w).2.2 := by
  cases stopped : c.running with
  | some r =>
    rw [refused_running (by rw [isRunning, stopped]; rfl) env]
    exact inOrder
  | none =>
    let s : Session σ := ⟨c.newManager, w.withBus w.bus.subscribe.2, []⟩
    have same : (c.session w).manager = c.newManager := by
      rw [session, manager?, stopped]
      rfl
    have before : s.Valid ∧ s.Orderly :=
      Session.congr_orderly inOrder.valid inOrder.orderly (congrArg _ same.symm) rfl rfl
    have steps := Session.run_steps before.1
      [.discover c.config.plugins.dir c.config.plugins.extension, .startAll, .unloadUnstarted]
    have after := Session.steps_orderly before.1 before.2 steps
    have marked := markFirst_world (c.config.directory env)
      (c.enroll (w.withBus w.bus.subscribe.2)).2.2
    obtain ⟨files, marked⟩ := marked
    rw [start_eq_enroll env stopped w, marked]
    exact .of_session after rfl rfl rfl

/-- A turn of a pump is a step, or nothing that modules notice. -/
theorem turn?_orderly {receipt : Receipt σ} (turn : turn? r w = some (receipt, r', w'))
    (kept : Session.Valid ⟨r.manager, w, []⟩ ∧ Session.Orderly ⟨r.manager, w, []⟩) :
    Session.Valid ⟨r'.manager, w', []⟩ ∧ Session.Orderly ⟨r'.manager, w', []⟩ := by
  unfold turn? at turn
  rcases received : w.bus.receive r.receiver with ⟨e | n | _ | _, bus⟩
  · simp only [received, Option.some.injEq, Prod.mk.injEq] at turn
    obtain ⟨-, rfl, rfl⟩ := turn
    have told : Session.Valid ⟨r.manager, w.withBus bus, []⟩ ∧
        Session.Orderly ⟨r.manager, w.withBus bus, []⟩ :=
      Session.congr_orderly kept.1 kept.2 rfl rfl rfl
    cases e with
    | plugin source type payload time =>
      exact Session.steps_orderly told.1 told.2
        (Session.dispatch_steps ⟨r.manager, w.withBus bus, []⟩ (some source) type payload)
    | pluginLoaded | pluginInitialized | pluginUnloaded | pluginError | shutdown => exact told
  · simp only [received, Option.some.injEq, Prod.mk.injEq] at turn
    obtain ⟨-, rfl, rfl⟩ := turn
    exact Session.congr_orderly kept.1 kept.2 rfl rfl rfl
  · simp [received] at turn
  · simp [received] at turn

theorem pumpFrom_orderly {fuel n : Nat} (returned : pumpFrom fuel r w = some (n, r', w'))
    (kept : Session.Valid ⟨r.manager, w, []⟩ ∧ Session.Orderly ⟨r.manager, w, []⟩) :
    Session.Valid ⟨r'.manager, w', []⟩ ∧ Session.Orderly ⟨r'.manager, w', []⟩ := by
  induction fuel generalizing r w n with
  | zero => cases returned
  | succ fuel ih =>
    cases turn : turn? r w with
    | none =>
      rw [pumpFrom_of_none turn] at returned
      obtain ⟨-, rfl, rfl⟩ : 0 = n ∧ r = r' ∧ w = w' := by simpa using returned
      exact kept
    | some next =>
      obtain ⟨receipt, r₁, w₁⟩ := next
      rw [pumpFrom_of_turn turn] at returned
      obtain ⟨⟨n₁, r₂, w₂⟩, rest, eq⟩ := Option.map_eq_some_iff.mp returned
      obtain ⟨-, rfl, rfl⟩ :
          n₁ + (if receipt.isPlugin then 1 else 0) = n ∧ r₂ = r' ∧ w₂ = w' := by simpa using eq
      exact ih rest (turn?_orderly turn kept)

theorem InOrder.running (inOrder : c.InOrder w) (running : c.running = some r) :
    Session.Valid ⟨r.manager, w, []⟩ ∧ Session.Orderly ⟨r.manager, w, []⟩ := by
  have same : c.session w = ⟨r.manager, w, []⟩ := by
    rw [session, manager?, running]
    rfl
  exact same ▸ ⟨inOrder.valid, inOrder.orderly⟩

theorem pump_inOrder (inOrder : c.InOrder w) {fuel : Nat} {result : Except Error Nat}
    (pumped : c.pump fuel w = some (result, c', w')) : c'.InOrder w' := by
  rw [pump] at pumped
  cases running : c.running with
  | none =>
    rw [running] at pumped
    obtain ⟨-, rfl, rfl⟩ : _ ∧ c = c' ∧ w = w' := by simpa using pumped
    exact inOrder
  | some r =>
    rw [running] at pumped
    obtain ⟨⟨n, r', w₁⟩, returned, eq⟩ := Option.map_eq_some_iff.mp pumped
    obtain ⟨-, rfl, rfl⟩ : _ ∧ _ = c' ∧ w₁ = w' := by simpa using eq
    exact .of_session (pumpFrom_orderly returned (inOrder.running running)) rfl rfl rfl

theorem shutdown_inOrder (inOrder : c.InOrder w) :
    (c.shutdown w).2.1.InOrder (c.shutdown w).2.2 := by
  cases running : c.running with
  | none =>
    rw [shutdown, running]
    exact inOrder
  | some r =>
    let s : Session σ := ⟨r.manager, w.publish .shutdown, []⟩
    obtain ⟨valid, orderly⟩ := inOrder.running running
    have told : s.Valid ∧ s.Orderly := Session.congr_orderly valid orderly rfl rfl rfl
    have ended := Session.steps_orderly told.1 told.2 (Session.shutdown_steps s)
    rw [shutdown, running]
    exact .of_session ended rfl rfl rfl

/-- Every operation keeps the core in order. -/
theorem operate_inOrder (inOrder : c.InOrder w) {o : Operation σ}
    (done : c.operate w o = some (c', w')) : c'.InOrder w' := by
  cases o with
  | start env =>
    obtain ⟨rfl, rfl⟩ := Prod.mk.inj (Option.some.inj done)
    exact start_inOrder inOrder env
  | pump fuel =>
    obtain ⟨⟨result, after⟩, pumped, rfl⟩ := Option.map_eq_some_iff.mp done
    exact pump_inOrder inOrder pumped
  | shutdown =>
    obtain ⟨rfl, rfl⟩ := Prod.mk.inj (Option.some.inj done)
    exact shutdown_inOrder inOrder
  | act a =>
    rw [operate] at done
    cases running : c.running with
    | none =>
      rw [running] at done
      obtain ⟨rfl, rfl⟩ := Prod.mk.inj (Option.some.inj done)
      exact inOrder
    | some r =>
      rw [running] at done
      obtain ⟨rfl, rfl⟩ := Prod.mk.inj (Option.some.inj done)
      obtain ⟨valid, orderly⟩ := inOrder.running running
      exact .of_session (Session.steps_orderly valid orderly (Session.act_steps valid a))
        rfl rfl rfl
  | elapse files bus now outside =>
    obtain ⟨rfl, rfl⟩ := Prod.mk.inj (Option.some.inj done)
    exact .of_session ⟨inOrder.valid, inOrder.orderly⟩ rfl rfl rfl

theorem operateAll_inOrder (inOrder : c.InOrder w) {ops : List (Operation σ)}
    (done : c.operateAll w ops = some (c', w')) : c'.InOrder w' := by
  induction ops generalizing c w with
  | nil =>
    obtain ⟨rfl, rfl⟩ := Prod.mk.inj (Option.some.inj done)
    exact inOrder
  | cons o rest ih =>
    obtain ⟨⟨c₁, w₁⟩, first, others⟩ := Option.bind_eq_some_iff.mp done
    exact ih (operate_inOrder inOrder first) others

/-- A core in order that does not run accounts for its candidates when it is started. -/
theorem InOrder.accountsFor (inOrder : c.InOrder w) (stopped : c.isRunning = false)
    (env : Environment) : c.AccountsFor env w := by
  have none : c.running = none :=
    Option.isNone_iff_eq_none.mp (Option.isSome_eq_false_iff.mp stopped)
  have valid : Session.Valid ⟨c.newManager, w, []⟩ := by
    have same : c.session w = ⟨c.newManager, w, []⟩ := by
      rw [session, manager?, none]
      rfl
    exact same ▸ inOrder.valid
  obtain ⟨report, r, δ, ok, after, journal, begun⟩ := start_begun env none valid
  have unnoticed (R : Files → Files → Prop) (files : Files)
      (blind : c.newManager.Blind (c.candidates w) R) (related : R w.files files)
      (same : c.candidates (w.withFiles files) = c.candidates w) (configDir : Option String)
      (env' : Environment) :
      Alike (c.start env w) ((c.relocated configDir).start env' (w.withFiles files)) :=
    start_alike env env' configDir none blind related same
  have equal : c.newManager.Blind (c.candidates w) (· = ·) :=
    ⟨fun _ _ _ _ eq => eq ▸ ⟨rfl, rfl⟩, fun _ _ _ _ _ eq => eq ▸ rfl⟩
  exact
    { begins := ⟨report, r, δ, ok, after, journal, begun, fun _ => begun.shows_once,
        begun.lengths⟩
      moved := unnoticed (· = ·) w.files equal rfl rfl
      unnoticed }

end Core

/-! ## Three candidates -/

namespace Trio

/-- A loader for which one plugin accepts to start, one refuses, and one is none. -/
def loader : Loader Unit := fun path _ _ =>
  match Path.stem? path with
  | some "org.c" => .ok .noEntry
  | stem =>
    let table := Parrot.table (stem.getD "") Parrot.polite
    .ok (.table { table with start := some fun _ => .done (stem != some "org.b") })

def core : Core Unit :=
  { config := { runtime := { configDir := some "conf" } }
    loader
    programs := fun _ => none }

/-- The plugin directory, and what lies where the marker belongs. -/
def files (marker : List (String × Files.Node)) : Files :=
  ⟨.dir (("plugins", .dir [("org.a.so", .file []), ("org.b.so", .file []),
    ("org.c.so", .file [])]) :: marker), []⟩

def world : World Unit :=
  { Parrot.world 4 with files := files [] }

/-- A marker, one that holds something, and two ways in which it cannot be written. -/
def markers : List (List (String × Files.Node)) :=
  [[("conf", .dir [(".initialized", .file [])])], [("conf", .dir [(".initialized", .file [7])])],
    [("conf", .file [])], [("conf", .dir [(".initialized", .dir [])])]]

/-- Starts and shutdowns, some of them out of place. -/
def used : List (Core.Operation Unit) :=
  [.shutdown, .start {}, .start {}, .pump 20, .shutdown, .pump 20]

/-- What the report of a start lists. -/
def lists (r : Except Error Core.Start × Core Unit × World Unit) :
    Option (List String × List String × List String) :=
  r.1.toOption.map fun s => (s.started, s.refused, s.failures.map (·.path))

/-- There is nothing at the path. -/
def misses (fs : Files) (q : String) : Bool :=
  fs.node true q matches .error .notFound

theorem node_of_misses {fs : Files} {q : String} (misses : misses fs q = true) :
    fs.node true q = .error .notFound := by
  unfold Trio.misses at misses
  split at misses
  · assumption
  · cases misses

end Trio

/-! ## Starts, whatever went before -/

/-- Whatever is done with a core, what is out of place afterwards is refused and does nothing;
and a core that does not run accounts for its candidates when it is started. -/
theorem starts_account_for_candidates {σ : Type} (c₀ c : Core σ) (w₀ w : World σ)
    (ops : List (Core.Operation σ))
    (done : Core.operateAll { c₀ with running := none } { w₀ with journal := [] } ops =
      some (c, w)) :
    (c.isRunning = true → ∀ env, c.start env w = (.error .alreadyRunning, c, w)) ∧
      (c.isRunning = false →
        (∀ fuel, c.pump fuel w = some (.error .notRunning, c, w)) ∧
          c.shutdown w = (.error .notRunning, c, w) ∧ c.close w = w ∧
          ∀ env, c.AccountsFor env w) := by
  have inOrder := Core.operateAll_inOrder (Core.InOrder.new c₀ w₀) done
  refine ⟨Core.refused_running, fun stopped => ?_⟩
  obtain ⟨pump, shutdown, close⟩ := Core.refused_stopped (w := w) stopped
  exact ⟨pump, shutdown, close, inOrder.accountsFor stopped⟩

/-- A core that was started and shut down is started again: one plugin is started, one refuses
and one file is no plugin. Whatever lies where the marker belongs, its first start is the same. -/
theorem trio_is_accounted_for :
    (∃ c w, Trio.core.operateAll Trio.world Trio.used = some (c, w) ∧ c.isRunning = false ∧
      Trio.lists (c.start {} w) = some (["org.a"], ["org.b"], ["plugins/org.c.so"]) ∧
      c.AccountsFor {} w) ∧
    ∀ marker ∈ Trio.markers, Core.Alike (Trio.core.start {} Trio.world)
      (Trio.core.start {} (Trio.world.withFiles (Trio.files marker))) := by
  constructor
  · have came : (Trio.core.operateAll Trio.world Trio.used).map
        (fun cw => (cw.1.isRunning, Trio.lists (cw.1.start {} cw.2))) =
          some (false, some (["org.a"], ["org.b"], ["plugins/org.c.so"])) := by
      decide +kernel
    obtain ⟨⟨c, w⟩, done, eq⟩ := Option.map_eq_some_iff.mp came
    obtain ⟨stopped, lists⟩ := Prod.mk.inj eq
    obtain ⟨-, idle⟩ := starts_account_for_candidates Trio.core c Trio.world w Trio.used done
    exact ⟨c, w, done, stopped, lists, (idle stopped).2.2.2 {}⟩
  · intro marker hm
    have blind : Trio.core.newManager.Blind (Trio.core.candidates Trio.world) _ :=
      Manager.blind_of_sameAt rfl fun _ _ _ _ => rfl
    have found : ∀ marker ∈ Trio.markers,
        Trio.core.candidates (Trio.world.withFiles (Trio.files marker)) =
          Trio.core.candidates Trio.world := by
      decide +kernel
    -- No candidate has a sidecar, and there is no key, so loads look at nothing.
    have missing : ∀ marker ∈ [] :: Trio.markers,
        ∀ q ∈ (Trio.core.candidates Trio.world).flatMap Trio.core.newManager.gate.looksAt,
          Trio.misses (Trio.files marker) q = true := by
      decide +kernel
    have same : Files.SameAt
        ((Trio.core.candidates Trio.world).flatMap Trio.core.newManager.gate.looksAt)
        Trio.world.files (Trio.files marker) := fun q hq =>
      (Trio.node_of_misses (missing [] List.mem_cons_self q hq)).trans
        (Trio.node_of_misses (missing marker (List.mem_cons_of_mem _ hm) q hq)).symm
    obtain ⟨-, idle⟩ := starts_account_for_candidates Trio.core _ Trio.world _ [] rfl
    exact ((idle rfl).2.2.2 {}).unnoticed _ _ blind same (found marker hm) (some "conf") {}

end PluginHost
