import Mathlib.Data.List.Nodup
import PluginHost.Proofs.Session.Actions

/-!
# Where a plugin comes from

The set-up of a manager never changes, and each managed plugin came of exactly one of
the loads that were tried. Of what it was then, only its state and what it has been
granted may have changed since.

Results:
1. `Step.traced`: every step keeps the set-up and the origins.
2. `Session.Traced.unique`: a plugin comes of one load only.
-/

namespace PluginHost

-- Nothing here depends on how the gate decides, so reduction stops before it.
attribute [local irreducible] Gate.check Files.present

/-! ## Definitions -/

/-- The set-up of a manager: all but its plugins. -/
def Manager.setUp {σ : Type} (m : Manager σ) : Manager σ :=
  { m with plugins := [] }

/-- What stays of a plugin as long as it is managed: all but its state and what it has been
granted. -/
def Managed.kept {σ : Type} (p : Managed σ) : Managed σ :=
  { p with state := .loaded, grant := { p.grant with granted := 0#64 } }

/-- `p.Origin a t who`: the plugin `p` was taken in by the load `a`, at which the gate
decided `t` and the module reported `who`. -/
structure Managed.Origin {σ : Type} (p : Managed σ) (a : Attempt σ) (t : Trust) (who : Metadata) :
    Prop where
  gate : a.check = .ok t
  reported : a.reported? = some (p.interface, who)
  vetted : a.manager.vet a.path t who = .ok ()
  result : a.result = .ok who.id
  kept : p.kept = (Manager.newcomer a.manager.policy a.path t p.interface who a.handle).kept

/-- The origins of a session whose manager was set up as `m`.

* `setUp` and `setUpThen`: the set-up is that of `m`, and was so at every load.
* `origin`: each managed plugin came of a load.
* `older` and `once`: loads that went well opened different modules. -/
structure Session.Traced {σ : Type} (m : Manager σ) (s : Session σ) : Prop where
  setUp : s.manager.setUp = m.setUp
  setUpThen : ∀ a ∈ s.tried, a.manager.setUp = m.setUp
  origin : ∀ p ∈ s.manager.plugins, ∃ a ∈ s.tried, ∃ t who, p.Origin a t who
  older : ∀ a ∈ s.tried, a.result.isOk = true → a.handle.number < s.world.handles
  once : ((s.tried.filter (·.result.isOk)).map (·.handle)).Nodup

/-! ## One plugin -/

section plugin

variable {σ : Type} {p p' : Managed σ} {a : Attempt σ} {t : Trust} {who : Metadata}
  {w w' : World σ}

namespace Managed.Origin

theorem id_eq (o : p.Origin a t who) : p.id = who.id :=
  congrArg Managed.id o.kept

theorem version_eq (o : p.Origin a t who) : p.version = who.version :=
  congrArg Managed.version o.kept

theorem handle_eq (o : p.Origin a t who) : p.handle = a.handle :=
  congrArg Managed.handle o.kept

theorem requested_eq (o : p.Origin a t who) : p.requested = who.requested :=
  congrArg Managed.requested o.kept

theorem verified_eq (o : p.Origin a t who) : p.verified = t.isVerified :=
  congrArg Managed.verified o.kept

theorem manifest?_eq (o : p.Origin a t who) : a.manifest? = t.manifest? := by
  rw [Attempt.manifest?, o.gate]
  rfl

theorem ceiling_eq (o : p.Origin a t who) :
    p.grant.ceiling = a.manager.policy.ceiling p.id (a.manifest?.map Manifest.flags) := by
  rw [o.manifest?_eq, o.id_eq]
  exact congrArg (fun q => q.grant.ceiling) o.kept

theorem made (o : p.Origin a t who) : a.Made p :=
  ⟨o.id_eq ▸ o.result, o.handle_eq.symm⟩

end Managed.Origin

theorem Turn.interface_eq (turn : Turn p w p' w') : p'.interface = p.interface := by
  cases turn <;> rfl

/-- A turn changes the state and the grant alone, and of the grant only what is granted. -/
theorem Turn.kept_eq (turn : Turn p w p' w') : p'.kept = p.kept := by
  have same {g : Grant} {w₁ w₂ : World σ} (ran : Ran p.handle p.grant w₁ g w₂) :
      ({ g with granted := 0#64 } : Grant) = { p.grant with granted := 0#64 } := by
    simp only [ran.plugin, ran.ceiling]
  cases turn with
  | refuses _ ran => simp only [Managed.kept, same ran]
  | accepts _ ran => simp only [Managed.kept, same ran]
  | hears _ ran => simp only [Managed.kept, same ran]
  | uses ran => simp only [Managed.kept, same ran]

theorem Turn.origin (turn : Turn p w p' w') (o : p.Origin a t who) : p'.Origin a t who := by
  have interface := turn.interface_eq
  refine ⟨o.gate, ?_, o.vetted, o.result, ?_⟩
  · rw [interface]
    exact o.reported
  · rw [turn.kept_eq, interface]
    exact o.kept

end plugin

/-! ## Sessions -/

section sessions

variable {σ : Type} {m : Manager σ} {s s' : Session σ} {p : Managed σ} {a b : Attempt σ}

namespace Session.Traced

theorem gate_eq (traced : s.Traced m) (ha : a ∈ s.tried) : a.manager.gate = m.gate := by
  have same := congrArg Manager.gate (traced.setUpThen a ha)
  exact same

theorem policy_eq (traced : s.Traced m) (ha : a ∈ s.tried) : a.manager.policy = m.policy := by
  have same := congrArg Manager.policy (traced.setUpThen a ha)
  exact same

/-- A load that is tried next went well with a module that is newer than all others. -/
theorem once_concat (traced : s.Traced m) (path : String) :
    (((s.tried ++ [s.attempt path]).filter (·.result.isOk)).map (·.handle)).Nodup := by
  have below : ∀ h ∈ (s.tried.filter (·.result.isOk)).map (·.handle),
      h ≠ (s.attempt path).handle := by
    rintro h hh rfl
    obtain ⟨a, ha, same⟩ := List.mem_map.mp hh
    obtain ⟨tried, ok⟩ := List.mem_filter.mp ha
    have older := traced.older a tried ok
    rw [same] at older
    exact Nat.lt_irrefl _ older
  rw [List.filter_append, List.map_append, List.nodup_append]
  refine ⟨traced.once, ?_, ?_⟩
  · cases hok : (s.attempt path).result.isOk <;> simp [hok]
  · intro h hh k hk
    obtain ⟨a, ha, rfl⟩ := List.mem_map.mp hk
    rw [List.mem_singleton.mp (List.mem_filter.mp ha).1]
    exact below h hh

/-- A plugin comes of one load only. -/
theorem unique (traced : s.Traced m) (ha : a ∈ s.tried) (hb : b ∈ s.tried) (madeA : a.Made p)
    (madeB : b.Made p) : b = a := by
  refine List.inj_on_of_nodup_map traced.once ?_ ?_ (madeB.2.trans madeA.2.symm)
  · exact List.mem_filter.mpr ⟨hb, by rw [madeB.1]; rfl⟩
  · exact List.mem_filter.mpr ⟨ha, by rw [madeA.1]; rfl⟩

theorem tries (traced : s.Traced m) {path : String} {m' : Manager σ} {w : World σ}
    (came : (s.attempt path).Came m' w) :
    Session.Traced m ⟨m', w, s.tried ++ [s.attempt path]⟩ := by
  have setUpThen : ∀ a ∈ s.tried ++ [s.attempt path], a.manager.setUp = m.setUp := by
    intro a ha
    rcases List.mem_append.mp ha with ha | ha
    · exact traced.setUpThen a ha
    · rw [List.mem_singleton.mp ha]
      exact traced.setUp
  have origin : ∀ p ∈ s.manager.plugins, ∃ a ∈ s.tried ++ [s.attempt path], ∃ t who,
      p.Origin a t who := by
    intro p hp
    obtain ⟨a, ha, t, who, o⟩ := traced.origin p hp
    exact ⟨a, List.mem_append_left _ ha, t, who, o⟩
  have older {n : Nat} (more : s.world.handles ≤ n)
      (last : (s.attempt path).result.isOk = true → s.world.handles < n) :
      ∀ a ∈ s.tried ++ [s.attempt path], a.result.isOk = true → a.handle.number < n := by
    intro a ha ok
    rcases List.mem_append.mp ha with ha | ha
    · exact Nat.lt_of_lt_of_le (traced.older a ha ok) more
    · rw [List.mem_singleton.mp ha] at ok ⊢
      exact last ok
  cases came with
  | refused _ result =>
    refine ⟨traced.setUp, setUpThen, origin, older (Nat.le_refl _) ?_, traced.once_concat path⟩
    simp [result, Except.isOk, Except.toBool]
  | unopened _ result =>
    refine ⟨traced.setUp, setUpThen, origin, older (Nat.le_refl _) ?_, traced.once_concat path⟩
    simp [result, Except.isOk, Except.toBool]
  | @rejected _ _ w _ result asked =>
    have handles : w.handles = s.world.handles + 1 := asked.1
    refine ⟨traced.setUp, setUpThen, origin, ?_, traced.once_concat path⟩
    exact older (handles ▸ Nat.le_succ _) fun _ => handles ▸ Nat.lt_succ_self _
  | @joined t i who w gate reported vetted result asked =>
    have handles : w.handles = s.world.handles + 1 := asked.1
    refine ⟨traced.setUp, setUpThen, ?_, ?_, traced.once_concat path⟩
    · refine Manager.forall_joined.mpr ⟨origin, s.attempt path, by simp, t, who, ?_⟩
      exact ⟨gate, reported, vetted, result, rfl⟩
    · exact older (handles ▸ Nat.le_succ _) fun _ => handles ▸ Nat.lt_succ_self _

end Session.Traced

/-- Every step keeps the set-up and the origins. -/
theorem Step.traced (step : Step s s') (traced : s.Traced m) : s'.Traced m := by
  cases step with
  | tries path came => exact traced.tries came
  | @turns before after p p' w here turn =>
    obtain ⟨setUp, setUpThen, origin, older, once⟩ := traced
    rw [here] at origin
    rw [← turn.notes.handles] at older
    obtain ⟨⟨a, ha, t, who, o⟩, others⟩ := Manager.forall_placed.mp origin
    refine ⟨setUp, setUpThen, ?_, older, once⟩
    exact Manager.forall_placed.mpr ⟨⟨a, ha, t, who, turn.origin o⟩, others⟩
  | @leaves before after p w here leaving =>
    obtain ⟨setUp, setUpThen, origin, older, once⟩ := traced
    rw [here] at origin
    rw [← leaving.notes.handles] at older
    obtain ⟨-, others⟩ := Manager.forall_placed.mp origin
    exact ⟨setUp, setUpThen, fun q hq => others q (List.mem_append.mp hq), older, once⟩
  | @idles w journal handles =>
    obtain ⟨setUp, setUpThen, origin, older, once⟩ := traced
    rw [← handles] at older
    exact ⟨setUp, setUpThen, origin, older, once⟩

/-- Every session is traced to the manager that it started with. -/
theorem Session.run_traced (m : Manager σ) (w : World σ) (actions : List (Action σ)) :
    ((new m w).run actions).Valid ∧ ((new m w).run actions).Traced m := by
  have start : (new m w).Traced m := by
    refine ⟨rfl, ?_, ?_, ?_, ?_⟩ <;> simp [new]
  exact run_induction (fun _ _ _ step traced => step.traced traced) start actions

end sessions

end PluginHost
