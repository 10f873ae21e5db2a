import PluginHost.Proofs.Session.Origin
import PluginHost.Proofs.Trust.Gate

/-!
# The trust gate in a session

No module is opened that the gate does not let in, whether it is loaded on its own or
found in a directory, and what is known of a plugin agrees with what the gate decided
when it was loaded.

Results:
1. `Manager.loadEach_opens`: candidates that are loaded one after the other open the
   modules that the gate lets in, and no others.
2. `session_is_guarded`: what the gate decides holds of every load, every discovery and
   every plugin of a session.
-/

namespace PluginHost

-- Nothing here depends on how the gate decides, so reduction stops before it.
attribute [local irreducible] Gate.check Files.present

/-! ## Definitions -/

/-- `s.Guarded m`: the gate of `m` guards the session `s`, in which `m` was set up.

* `gate`: it is the gate that decides at every load.
* `refused`: a load of a module that the gate refuses fails with what the gate said, and
  neither opens the module nor changes the manager.
* `candidates`: a discovery tries every candidate, in order.
* `reported`: it opens no candidate that the gate refuses, and reports what the gate said.
* `opened`: all that it opens are candidates that the gate lets in.
* `verified`: a plugin came of one load, and it is verified if and only if the gate verified
  a manifest at this load; the manifest then names the id and the version that the module
  reported.
* `required`: where signatures are required, every plugin is verified. -/
structure Session.Guarded {σ : Type} (m : Manager σ) (s : Session σ) : Prop where
  gate : ∀ a ∈ s.tried, a.manager.gate = m.gate
  refused : ∀ path e, (s.attempt path).check = .error e →
    e.kind = .verification ∧ (s.manager.load path s.world).1 = .error e ∧
    (s.act (.load path)).manager = s.manager ∧
    (s.act (.load path)).world.journal = s.world.journal
  candidates : ∀ dir extension, s.world.files.present dir = true →
    (s.manager.attemptsIn dir extension s.world).map (·.path) =
      s.world.files.candidates dir extension
  reported : ∀ dir extension, ∀ a ∈ s.manager.attemptsIn dir extension s.world, ∀ e,
    a.check = .error e → e.kind = .verification ∧ a.run.2.2.journal = a.world.journal ∧
      ⟨a.path, e⟩ ∈ (s.manager.discover dir extension s.world).1.failures
  opened : ∀ dir extension, ∃ δ,
    (s.act (.discover dir extension)).world.journal = s.world.journal ++ δ ∧
    ∀ h, .opened h ∈ δ → ∃ a ∈ s.manager.attemptsIn dir extension s.world,
      h = a.handle ∧ a.check.isOk = true
  verified : ∀ p ∈ s.manager.plugins, ∃ a ∈ s.tried, a.Made p ∧
    (∀ b ∈ s.tried, b.Made p → b = a) ∧
    (p.verified = true ↔ ∃ d, a.check = .ok (.verified d)) ∧
    ∀ d, a.check = .ok (.verified d) → ∃ who, a.reported? = some (p.interface, who) ∧
      d.id = who.id ∧ d.version = who.version ∧ p.id = who.id ∧ p.version = who.version
  required : m.gate.requireSignatures = true → ∀ p ∈ s.manager.plugins, p.verified = true

/-! ## Loads -/

section loads

variable {σ : Type} {a : Attempt σ}

theorem Attempt.error_kind {e : Error} (gate : a.check = .error e) : e.kind = .verification := by
  obtain ⟨r, -, rfl⟩ := Gate.check_error gate
  rfl

/-- A load opens its own module, and only if the gate lets it in. -/
theorem Attempt.opens (a : Attempt σ) : ∃ δ, a.run.2.2.journal = a.world.journal ++ δ ∧
    ∀ h, .opened h ∈ δ → h = a.handle ∧ a.check.isOk = true := by
  have noted (δ : List Entry) (asked : ∀ e ∈ δ, ∃ what, e = .asked a.handle what) :
      ∀ h, .opened h ∉ δ := by
    intro h hh
    obtain ⟨what, same⟩ := asked _ hh
    cases same
  have came := a.came
  generalize a.run.2.1 = m, a.run.2.2 = w at came ⊢
  cases came with
  | refused => exact ⟨[], by simp [checked], by simp⟩
  | unopened => exact ⟨[], by simp [checked], by simp⟩
  | @rejected t _ w gate _ asked =>
    obtain ⟨-, δ, hj, hδ⟩ := asked
    refine ⟨.opened a.handle :: δ ++ [.closed a.handle], ?_, fun h hh => ?_⟩
    · simp [World.closeHandle, World.note, hj, opened_journal]
    · rw [gate]
      simp only [List.cons_append, List.mem_cons, List.mem_append, List.not_mem_nil, or_false,
        reduceCtorEq, Entry.opened.injEq, noted δ hδ h] at hh
      exact ⟨hh, rfl⟩
  | @joined t i who w gate _ _ _ asked =>
    obtain ⟨-, δ, hj, hδ⟩ := asked
    refine ⟨.opened a.handle :: δ, ?_, fun h hh => ?_⟩
    · simp [World.publish, hj, opened_journal]
    · rw [gate]
      simp only [List.mem_cons, Entry.opened.injEq, noted δ hδ h, or_false] at hh
      exact ⟨hh, rfl⟩

/-- Candidates that are loaded one after the other open the modules that the gate lets
in, and no others. -/
theorem Manager.loadEach_opens (m : Manager σ) (w : World σ) (paths : List String) :
    ∃ δ, (m.loadEach w paths).2.2.journal = w.journal ++ δ ∧
      ∀ h, .opened h ∈ δ → ∃ a ∈ m.attempts w paths, h = a.handle ∧ a.check.isOk = true := by
  induction paths generalizing m w with
  | nil => exact ⟨[], by simp [loadEach_nil], by simp⟩
  | cons path rest ih =>
    obtain ⟨δ, hj, hδ⟩ := Attempt.opens ⟨m, w, path⟩
    have both {m' : Manager σ} {w' : World σ} {δ' : List Entry}
        (here : m.attempts w (path :: rest) = ⟨m, w, path⟩ :: m'.attempts w' rest)
        (hδ' : ∀ h, .opened h ∈ δ' → ∃ a ∈ m'.attempts w' rest, h = a.handle ∧
          a.check.isOk = true) :
        ∀ h, .opened h ∈ δ ++ δ' → ∃ a ∈ m.attempts w (path :: rest), h = a.handle ∧
          a.check.isOk = true := by
      intro h hh
      rw [here]
      rcases List.mem_append.mp hh with hh | hh
      · exact ⟨_, List.mem_cons_self, hδ h hh⟩
      · obtain ⟨a, ha, opened⟩ := hδ' h hh
        exact ⟨a, List.mem_cons_of_mem _ ha, opened⟩
    rcases hload : m.load path w with ⟨e | id, m', w'⟩
    · obtain ⟨δ', hj', hδ'⟩ := ih m' (w'.publish (.pluginError path e.message))
      refine ⟨δ ++ δ', ?_, both (by simp only [attempts, hload]) hδ'⟩
      simp only [Attempt.run, hload] at hj
      have published : (w'.publish (.pluginError path e.message)).journal = w'.journal := rfl
      simp only [loadEach_of_error hload, hj', published, hj, List.append_assoc]
    · obtain ⟨δ', hj', hδ'⟩ := ih m' w'
      refine ⟨δ ++ δ', ?_, both (by simp only [attempts, hload]) hδ'⟩
      simp only [Attempt.run, hload] at hj
      simp only [loadEach_of_ok hload, hj', hj, List.append_assoc]

/-- A discovery opens the modules that the gate lets in, and no others. -/
theorem Manager.discover_opens (m : Manager σ) (w : World σ) (dir extension : String) :
    ∃ δ, (m.discover dir extension w).2.2.journal = w.journal ++ δ ∧
      ∀ h, .opened h ∈ δ → ∃ a ∈ m.attemptsIn dir extension w, h = a.handle ∧
        a.check.isOk = true := by
  unfold discover attemptsIn
  split
  · exact m.loadEach_opens w _
  · exact ⟨[], by simp, by simp⟩

/-- A discovery reports the failure of each candidate that failed. -/
theorem Manager.mem_failures {m : Manager σ} {w : World σ} {dir extension : String} {e : Error}
    (ha : a ∈ m.attemptsIn dir extension w) (failed : a.result = .error e) :
    ⟨a.path, e⟩ ∈ (m.discover dir extension w).1.failures := by
  unfold attemptsIn at ha
  unfold discover
  split at ha
  · next present =>
    rw [if_pos present, failures_loadEach, List.mem_filterMap]
    exact ⟨a, ha, by rw [Attempt.failure?, failed]⟩
  · cases ha

end loads

/-! ## Plugins -/

section plugins

variable {σ : Type} {p : Managed σ} {a : Attempt σ} {t : Trust} {who : Metadata}

/-- A verified manifest and the module agree. -/
theorem Managed.Origin.agrees (o : p.Origin a t who) {d : Manifest} (verified : t = .verified d) :
    d.id = who.id ∧ d.version = who.version := by
  have vetted := o.vetted
  rw [verified] at vetted
  unfold Manager.vet at vetted
  split at vetted
  · cases vetted
  · simp only [Trust.manifest?] at vetted
    split at vetted
    · cases vetted
    · next same =>
      simpa only [ne_eq, not_or, Decidable.not_not] using same

/-- A plugin is verified if the gate has verified its module. -/
theorem Managed.Origin.verified_iff (o : p.Origin a t who) :
    p.verified = true ↔ ∃ d, a.check = .ok (.verified d) := by
  rw [o.verified_eq, o.gate]
  cases t <;> simp [Trust.isVerified, Trust.manifest?]

end plugins

/-! ## Sessions -/

/-- Every session is guarded by the gate of its manager. -/
theorem session_is_guarded {σ : Type} (m : Manager σ) (w : World σ) (actions : List (Action σ)) :
    ((Session.new m w).run actions).Guarded m := by
  generalize hs : (Session.new m w).run actions = s
  have traced : s.Traced m := hs ▸ (Session.run_traced m w actions).2
  constructor
  case gate => exact fun a ha => traced.gate_eq ha
  case refused =>
    intro path e gate
    have run := Attempt.run_of_refused gate
    refine ⟨Attempt.error_kind gate, congrArg Prod.fst run, ?_, ?_⟩
    · exact congrArg (fun r => r.2.1) run
    · exact congrArg (fun r => r.2.2.journal) run
  case candidates =>
    intro dir extension present
    rw [Manager.attemptsIn, if_pos present]
    exact Manager.attempts_path _ _ _
  case reported =>
    intro dir extension a ha e gate
    have run := Attempt.run_of_refused gate
    refine ⟨Attempt.error_kind gate, congrArg (fun r => r.2.2.journal) run, ?_⟩
    exact Manager.mem_failures ha (congrArg Prod.fst run)
  case opened => exact fun dir extension => s.manager.discover_opens s.world dir extension
  case verified =>
    intro p hp
    obtain ⟨a, ha, t, who, o⟩ := traced.origin p hp
    refine ⟨a, ha, o.made, fun b hb made => traced.unique ha hb o.made made, o.verified_iff, ?_⟩
    intro d verified
    have same : t = .verified d := Except.ok.inj (o.gate.symm.trans verified)
    obtain ⟨id, version⟩ := o.agrees same
    exact ⟨who, o.reported, id, version, o.id_eq, o.version_eq⟩
  case required =>
    intro required p hp
    obtain ⟨a, ha, t, who, o⟩ := traced.origin p hp
    rw [← traced.gate_eq ha] at required
    obtain ⟨d, rfl⟩ := Gate.check_required required o.gate
    exact o.verified_iff.mpr ⟨d, o.gate⟩

/-- Of two candidates of a directory one is vouched for by a signature file that is there,
and the other has none. The gate requires signatures, and its verifier is content with a
file. -/
theorem vouched_session_is_guarded :
    let manifest : List UInt8 := Utf8.bytesOf "[\"org.hesitant\",\"Hesitant\",\"1\"]"
    let verifier : Signature.Verifier := fun _ signature _ files =>
      (if (files.read signature).isOk then .valid else .invalid "no signature", files)
    let fresh := Hesitant.fresh ⟨verifier, some "k.pub", true⟩ {}
      [("d", .dir [("bad.so", .file []), ("good.so", .file []),
        ("bad.manifest.json", .file manifest), ("good.manifest.json", .file manifest),
        ("good.manifest.sig", .file [])])]
    let s := fresh.run [.discover "d" "so"]
    s.manager.plugins.map (fun p => (p.path, p.verified)) = [("d/good.so", true)] ∧
      (s.attempt "d/bad.so").check.isOk = false ∧ s.Guarded fresh.manager := by
  intro manifest verifier fresh s
  refine ⟨by decide +kernel, by decide +kernel, session_is_guarded _ _ _⟩

end PluginHost
