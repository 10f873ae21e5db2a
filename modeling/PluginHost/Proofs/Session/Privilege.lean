import PluginHost.Proofs.Session.Origin

/-!
# Least privilege in a session

The grant of a plugin is clipped to a ceiling when the plugin is loaded. From then on
only requests on this very grant change it, and none takes it over the ceiling or takes
anything away.

Results:
1. `Step.privileged`: after every step each plugin holds what it was granted when it was
   loaded and what it was given since, and nothing else.
2. `Step.grown`: no step moves a ceiling or takes anything from a plugin that stays.
3. `grants_are_least`: the two over a whole session.
-/

namespace PluginHost

-- Nothing here depends on how the gate decides, so reduction stops before it.
attribute [local irreducible] Gate.check Files.present

/-! ## Definitions -/

/-- The plugin holds what is known and allowed of its first request, and what it was given
since, and all of this was its due.

* `due`: whatever it was given, its grant accepts.
* `holds`: what it holds. -/
structure Managed.Privileged {σ : Type} (p : Managed σ) (journal : List Entry) : Prop where
  due : ∀ m ∈ given p.handle journal, p.grant.accepts m = true
  holds : p.grant.granted =
    (p.requested.knownPart &&& p.grant.ceiling) ||| Mask.union (given p.handle journal)

/-- Every managed plugin is privileged as it should be. -/
def Session.Privileged {σ : Type} (s : Session σ) : Prop :=
  ∀ p ∈ s.manager.plugins, p.Privileged s.world.journal

/-- `p.Grew q`: the plugin `p` may have become `q`, which has the same ceiling and holds at
least as much. -/
structure Managed.Grew {σ : Type} (p q : Managed σ) : Prop where
  handle : q.handle = p.handle
  id : q.id = p.id
  ceiling : q.grant.ceiling = p.grant.ceiling
  granted : q.grant.granted.satisfies p.grant.granted = true

/-- `s.Grown s'`: plugins of `s'` with a module that was open in `s` are those of `s`, and
have lost nothing. -/
structure Session.Grown {σ : Type} (s s' : Session σ) : Prop where
  handles : s.world.handles ≤ s'.world.handles
  plugins : ∀ q ∈ s'.manager.plugins, q.handle.number < s.world.handles →
    ∃ p ∈ s.manager.plugins, p.Grew q

/-- `p.Least m s a`: the grant of `p` in the session `s`, in which `m` was set up, is what
the load `a` allows.

* `made` and `alone`: the plugin came of this load and of no other.
* `reported`: its first request is what the module reported.
* `ceiling`: its ceiling is what the policy says of its id and of the manifest that was
  verified at the load.
* `under` and `known`: what it holds is under the ceiling, and known.
* `held`: it holds what is known and allowed of its first request, and exactly what
  requests on its grant asked for that were answered with yes.
* `kept`: as long as it is managed, its ceiling stays and it loses nothing.
* `nothing`: under a least-privilege policy that does not name its id, and without a
  verified manifest, it never holds anything. -/
structure Managed.Least {σ : Type} (p : Managed σ) (m : Manager σ) (s : Session σ)
    (a : Attempt σ) : Prop where
  made : a.Made p
  alone : ∀ b ∈ s.tried, b.Made p → b = a
  reported : ∃ who, a.reported? = some (p.interface, who) ∧ p.requested = who.requested
  ceiling : p.grant.ceiling = m.policy.ceiling p.id (a.manifest?.map Manifest.flags)
  under : p.grant.ceiling.satisfies p.grant.granted = true
  known : Mask.known.satisfies p.grant.granted = true
  held : p.grant.granted = (p.requested &&& p.grant.ceiling &&& Mask.known) |||
    Mask.union (given p.handle s.world.journal)
  kept : ∀ more, ∀ q ∈ (s.run more).manager.plugins, q.handle = p.handle → p.Grew q
  nothing : m.policy.mode = .leastPrivilege → (∀ e ∈ m.policy.allowed, e.1 ≠ p.id) →
    a.manifest? = none → ∀ more, ∀ q ∈ (s.run more).manager.plugins, q.handle = p.handle →
    q.grant.granted = 0#64

/-! ## What is given -/

/-- Nothing is given to a module by what is noted of others. -/
theorem given_of_others {h : Handle} {δ : List Entry} (others : ∀ e ∈ δ, e.handle ≠ h) :
    given h δ = [] := by
  rw [given, List.filterMap_eq_nil_iff]
  intro e he
  have other := others e he
  cases e with
  | answered k call b =>
    cases call with
    | request m => cases b <;> simp_all [Entry.handle]
    | _ => rfl
  | _ => rfl

/-- A question to a module gives it nothing. -/
theorem given_of_asked {h : Handle} {δ : List Entry} (asked : ∀ e ∈ δ, ∃ what, e = .asked h what) :
    given h δ = [] := by
  rw [given, List.filterMap_eq_nil_iff]
  intro e he
  obtain ⟨what, rfl⟩ := asked e he
  rfl

section plugins

variable {σ : Type} {p p' q : Managed σ} {w w' : World σ} {h : Handle}

/-- What is told of one module gives nothing to another. -/
theorem Told.given_eq {j j' : List Entry} (told : Told h j j') {k : Handle} (other : k ≠ h) :
    given k j' = given k j := by
  obtain ⟨δ, rfl, hδ⟩ := told
  have others : ∀ e ∈ δ, e.handle ≠ k := fun e he same => other (same.symm.trans (hδ e he))
  rw [given_append, given_of_others others, List.append_nil]

theorem given_note {e : Entry} (silent : given h [e] = []) :
    given h (w.note e).journal = given h w.journal := by
  rw [World.note, given_append, silent, List.append_nil]

namespace Managed.Privileged

theorem congr {journal journal' : List Entry} (pr : p.Privileged journal)
    (same : given p.handle journal' = given p.handle journal) : p.Privileged journal' := by
  refine ⟨?_, ?_⟩
  · rw [same]
    exact pr.due
  · rw [same]
    exact pr.holds

/-- What a plugin holds is under its ceiling and known. -/
theorem within (pr : p.Privileged w.journal) :
    p.grant.ceiling.satisfies p.grant.granted = true ∧
      Mask.known.satisfies p.grant.granted = true := by
  rw [pr.holds]
  constructor
  · refine Mask.satisfies_or (Mask.satisfies_and_right _ _) (Mask.satisfies_union fun m hm => ?_)
    exact (Grant.accepts_iff.mp (pr.due m hm)).2
  · refine Mask.satisfies_or ?_ (Mask.satisfies_union fun m hm => ?_)
    · rw [Mask.knownPart, BitVec.and_assoc, BitVec.and_comm Mask.known, ← BitVec.and_assoc]
      exact Mask.satisfies_and_right _ _
    · exact (Grant.accepts_iff.mp (pr.due m hm)).1

/-- Calls of the host give a plugin what they answer with yes. -/
theorem ran {g : Grant} {st : PluginState} (pr : p.Privileged w.journal)
    (ran : Ran p.handle p.grant w g w') :
    Managed.Privileged { p with grant := g, state := st } w'.journal := by
  obtain ⟨δ, hj, -, due, holds⟩ := ran.journal
  constructor
  · intro m hm
    rw [hj, given_append] at hm
    rw [Grant.accepts_congr ran.ceiling]
    rcases List.mem_append.mp hm with hm | hm
    · exact pr.due m hm
    · exact due m hm
  · show g.granted = (p.requested.knownPart &&& g.ceiling) |||
      Mask.union (given p.handle w'.journal)
    rw [hj, given_append, Mask.union_append, ran.ceiling, ← BitVec.or_assoc, ← pr.holds, holds]

end Managed.Privileged

theorem Turn.privileged (turn : Turn p w p' w') (pr : p.Privileged w.journal) :
    p'.Privileged w'.journal := by
  cases turn with
  | refuses _ ran => exact ((pr.congr (given_note rfl)).ran ran).congr (given_note rfl)
  | accepts _ ran => exact ((pr.congr (given_note rfl)).ran ran).congr (given_note rfl)
  | hears _ ran => exact (pr.congr (given_note rfl)).ran ran
  | uses ran => exact pr.ran ran

/-- A turn moves no ceiling and takes nothing away. -/
theorem Turn.grew (turn : Turn p w p' w') : p.Grew p' := by
  have more {g : Grant} {w₁ w₂ : World σ} (ran : Ran p.handle p.grant w₁ g w₂) :
      g.granted.satisfies p.grant.granted = true := by
    obtain ⟨δ, -, -, -, holds⟩ := ran.journal
    rw [holds]
    exact Mask.or_satisfies _ _
  cases turn with
  | refuses _ ran => exact ⟨rfl, rfl, ran.ceiling, more ran⟩
  | accepts _ ran => exact ⟨rfl, rfl, ran.ceiling, more ran⟩
  | hears _ ran => exact ⟨rfl, rfl, ran.ceiling, more ran⟩
  | uses ran => exact ⟨rfl, rfl, ran.ceiling, more ran⟩

theorem Managed.Grew.refl (p : Managed σ) : p.Grew p :=
  ⟨rfl, rfl, rfl, Mask.satisfies_refl _⟩

theorem Managed.Grew.trans (a : p.Grew p') (b : p'.Grew q) : p.Grew q :=
  ⟨b.handle.trans a.handle, b.id.trans a.id, b.ceiling.trans a.ceiling,
    Mask.satisfies_trans b.granted a.granted⟩

end plugins

/-! ## Steps -/

section steps

variable {σ : Type} {s s' s'' : Session σ} {p q : Managed σ}

/-- A module that has just been opened was given nothing. -/
theorem Session.Valid.given_new (v : s.Valid) {path : String} {w : World σ}
    (asked : Asked (s.attempt path).handle (s.attempt path).opened w) :
    given (s.attempt path).handle w.journal = [] := by
  have before : given (s.attempt path).handle (s.attempt path).world.journal = [] := by
    refine given_of_others fun e he same => ?_
    have below := v.noted e he
    rw [same] at below
    exact Nat.lt_irrefl _ below
  obtain ⟨-, δ, hj, questions⟩ := asked
  rw [hj, Attempt.opened_journal, given_append, given_append, given_of_asked questions, before]
  rfl

theorem Session.Privileged.tries (v : s.Valid) (pr : s.Privileged) {path : String}
    {m : Manager σ} {w : World σ} (came : (s.attempt path).Came m w) :
    Session.Privileged ⟨m, w, s.tried ++ [s.attempt path]⟩ := by
  have old {w' : World σ} (told : Told (s.attempt path).handle s.world.journal w'.journal) :
      ∀ p ∈ s.manager.plugins, p.Privileged w'.journal :=
    fun p hp => (pr p hp).congr (told.given_eq (v.attempt_ne path hp))
  cases came with
  | refused => exact pr
  | unopened => exact pr
  | @rejected _ _ w _ _ asked => exact old (Attempt.told ((Notes.ofAsked asked).trans (.close _ w)))
  | @joined t i who w _ _ _ _ asked =>
    refine Manager.forall_joined.mpr ⟨old (Attempt.told (.ofAsked asked)), ?_, ?_⟩
    · show ∀ mask ∈ given (s.attempt path).handle w.journal, _
      rw [v.given_new asked]
      exact List.forall_mem_nil _
    · show _ = _ ||| Mask.union (given (s.attempt path).handle w.journal)
      rw [v.given_new asked]
      simp [Manager.newcomer, Manager.firstGrant, Grant.new, Mask.union]

/-- After every step each plugin holds what it was granted when it was loaded and what it
was given since, and nothing else. -/
theorem Step.privileged (v : s.Valid) (step : Step s s') (pr : s.Privileged) : s'.Privileged := by
  unfold Session.Privileged at pr
  cases step with
  | tries path came => exact Session.Privileged.tries v pr came
  | @turns before after p p' w here turn =>
    have apart := Manager.apart here v.modules
    rw [here] at pr
    obtain ⟨one, others⟩ := Manager.forall_placed.mp pr
    refine Manager.forall_placed.mpr ⟨turn.privileged one, fun q hq => ?_⟩
    exact (others q hq).congr (turn.notes.journal.given_eq (apart q hq))
  | @leaves before after p w here leaving =>
    have apart := Manager.apart here v.modules
    rw [here] at pr
    obtain ⟨-, others⟩ := Manager.forall_placed.mp pr
    intro q hq
    have rest := List.mem_append.mp hq
    exact (others q rest).congr (leaving.notes.journal.given_eq (apart q rest))
  | @idles w journal handles =>
    rw [← journal] at pr
    exact pr

theorem Session.Grown.refl (s : Session σ) : s.Grown s :=
  ⟨Nat.le_refl _, fun q hq _ => ⟨q, hq, .refl q⟩⟩

theorem Session.Grown.trans (a : s.Grown s') (b : s'.Grown s'') : s.Grown s'' := by
  refine ⟨Nat.le_trans a.handles b.handles, fun q hq below => ?_⟩
  obtain ⟨p', hp', second⟩ := b.plugins q hq (Nat.lt_of_lt_of_le below a.handles)
  rw [second.handle] at below
  obtain ⟨p, hp, first⟩ := a.plugins p' hp' below
  exact ⟨p, hp, first.trans second⟩

/-- No step moves a ceiling or takes anything from a plugin that stays. -/
theorem Step.grown (step : Step s s') : s.Grown s' := by
  have same : ∀ q ∈ s.manager.plugins, ∃ p ∈ s.manager.plugins, p.Grew q :=
    fun q hq => ⟨q, hq, .refl q⟩
  cases step with
  | @tries path m w came =>
    cases came with
    | refused => exact ⟨Nat.le_refl _, fun q hq _ => same q hq⟩
    | unopened => exact ⟨Nat.le_refl _, fun q hq _ => same q hq⟩
    | @rejected _ _ w _ _ asked =>
      have handles : w.handles = s.world.handles + 1 := asked.1
      exact ⟨handles ▸ Nat.le_succ _, fun q hq _ => same q hq⟩
    | @joined t i who w _ _ _ _ asked =>
      have handles : w.handles = s.world.handles + 1 := asked.1
      refine ⟨handles ▸ Nat.le_succ _, Manager.forall_joined.mpr ⟨fun q hq _ => same q hq, ?_⟩⟩
      exact fun below => absurd below (Nat.lt_irrefl _)
  | @turns before after p p' w here turn =>
    refine ⟨Nat.le_of_eq turn.notes.handles.symm, ?_⟩
    rw [here] at same ⊢
    obtain ⟨-, others⟩ := Manager.forall_placed.mp same
    refine Manager.forall_placed.mpr ⟨fun _ => ⟨p, by simp, turn.grew⟩, fun q hq _ => ?_⟩
    exact others q hq
  | @leaves before after p w here leaving =>
    refine ⟨Nat.le_of_eq leaving.notes.handles.symm, fun q hq _ => ?_⟩
    rw [here] at same ⊢
    exact (Manager.forall_placed.mp same).2 q (List.mem_append.mp hq)
  | @idles w journal handles => exact ⟨Nat.le_of_eq handles.symm, fun q hq _ => same q hq⟩

theorem Steps.grown (steps : Steps s s') : s.Grown s' := by
  induction steps with
  | refl => exact .refl s
  | tail _ step ih => exact ih.trans step.grown

/-- A plugin that is still managed has lost nothing. -/
theorem Session.Valid.grew (v : s.Valid) (grown : s.Grown s') (hp : p ∈ s.manager.plugins)
    (hq : q ∈ s'.manager.plugins) (same : q.handle = p.handle) : p.Grew q := by
  have below := v.managed p hp
  rw [← same] at below
  obtain ⟨p', hp', grew⟩ := grown.plugins q hq below
  have : p' = p := List.inj_on_of_nodup_map v.modules hp' hp (grew.handle.symm.trans same)
  exact this ▸ grew

end steps

/-! ## Sessions -/

/-- An id that no entry of a list names has an empty mask. -/
theorem Policy.maskOf_of_absent {id : String} {allowed : List (String × Mask)}
    (absent : ∀ e ∈ allowed, e.1 ≠ id) : maskOf id allowed = 0#64 := by
  induction allowed with
  | nil => rfl
  | cons e rest ih =>
    rw [maskOf, if_neg (absent e List.mem_cons_self)]
    exact ih fun e he => absent e (List.mem_cons_of_mem _ he)

/-- Without a permissive policy, an entry of its own and a verified manifest a plugin may
hold nothing. -/
theorem Policy.ceiling_of_absent {policy : Policy} {id : String}
    (least : policy.mode = .leastPrivilege) (absent : ∀ e ∈ policy.allowed, e.1 ≠ id) :
    policy.ceiling id none = 0#64 := by
  simp [ceiling, least, maskOf_of_absent absent]

/-- Every managed plugin of a session came of a load that was tried, and its grant is what
this load allows. -/
theorem grants_are_least {σ : Type} (m : Manager σ) (w : World σ) (actions : List (Action σ))
    (p : Managed σ) (managed : p ∈ ((Session.new m w).run actions).manager.plugins) :
    ∃ a ∈ ((Session.new m w).run actions).tried,
      p.Least m ((Session.new m w).run actions) a := by
  obtain ⟨valid, traced⟩ := Session.run_traced m w actions
  have privileged (acts : List (Action σ)) : ((Session.new m w).run acts).Privileged :=
    (Session.run_induction (P := Session.Privileged) (fun _ _ v step pr => step.privileged v pr)
      (fun _ hp => by cases hp) acts).2
  obtain ⟨a, ha, t, who, o⟩ := traced.origin p managed
  have ceiling : p.grant.ceiling = m.policy.ceiling p.id (a.manifest?.map Manifest.flags) := by
    rw [o.ceiling_eq, traced.policy_eq ha]
  have within := (privileged actions p managed).within
  have later (more : List (Action σ)) (q : Managed σ)
      (hq : q ∈ (((Session.new m w).run actions).run more).manager.plugins)
      (same : q.handle = p.handle) : p.Grew q :=
    valid.grew (Session.run_steps valid more).grown managed hq same
  refine ⟨a, ha, o.made, fun b hb made => traced.unique ha hb o.made made,
    ⟨who, o.reported, o.requested_eq⟩, ceiling, within.1, within.2, ?_, later, ?_⟩
  · rw [BitVec.and_assoc, BitVec.and_comm p.grant.ceiling, ← BitVec.and_assoc]
    exact (privileged actions p managed).holds
  · intro least absent unsigned more q hq same
    have privilegedThen : (((Session.new m w).run actions).run more).Privileged := by
      rw [← Session.run_append]
      exact privileged (actions ++ more)
    have empty : q.grant.ceiling = 0#64 := by
      rw [(later more q hq same).ceiling, ceiling, unsigned, Option.map_none,
        Policy.ceiling_of_absent least absent]
    have under := (privilegedThen q hq).within.1
    rw [empty] at under
    exact Mask.eq_zero_of_satisfies under

/-- A plugin is allowed two capabilities and a bit that no capability owns. It declares one
of the capabilities, is given both when it asks for them, and never the bit. -/
theorem hesitant_grant_is_least :
    let policy : Policy := { allowed := [("org.hesitant", 0x403#64)] }
    let s := (Hesitant.fresh .opened policy []).run
      (Hesitant.actions.take 3 ++ [.request ⟨0, "a.so"⟩ 0x400#64])
    ∃ p ∈ s.manager.plugins, p.requested = 1#64 ∧ p.grant.ceiling = 0x403#64 ∧
      p.grant.granted = 3#64 ∧
      ∃ a ∈ s.tried, p.Least (Hesitant.fresh .opened policy []).manager s a := by
  intro policy s
  have managed : ∃ p ∈ s.manager.plugins, p.requested = 1#64 ∧ p.grant.ceiling = 0x403#64 ∧
      p.grant.granted = 3#64 := by
    decide +kernel
  obtain ⟨p, hp, requested, ceiling, granted⟩ := managed
  exact ⟨p, hp, requested, ceiling, granted, grants_are_least _ _ _ p hp⟩

end PluginHost
