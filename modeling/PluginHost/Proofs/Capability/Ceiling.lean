import PluginHost.Config.Basic
import PluginHost.Proofs.Capability.Mask

/-!
# Ceilings

What a plugin may hold at most is put together from three sides: the names that the settings list
under its id, the masks that its id is allowed beside them, and the mask of its manifest. Each
side is a set and nothing is taken away, so the ceiling is the union, whatever comes first and
however often it comes.

Results:
1. `Mask.mem_ofNames` and `Mask.ofNames_append`: what a list of names comes to.
2. `Policy.mem_maskOf_allowAll`: what an id is allowed after any entries.
3. `PluginSettings.ceiling_congr`: a ceiling depends on the three sides alone.
4. `ceilings_are_exact`: which bits are in a ceiling, and what cannot change it.
-/

namespace PluginHost

/-! ## Definitions -/

/-- The policy under which entries are allowed one after the other. -/
def Policy.allowAll (p : Policy) (entries : List (String × Mask)) : Policy :=
  entries.foldl (fun p e => p.allow e.1 e.2) p

namespace PluginSettings

/-- The settings list the name of a capability under an id. -/
def Names (s : PluginSettings) (id : String) (c : Capability) : Prop :=
  ∃ names, (id, names) ∈ s.grants ∧ c.name ∈ names

/-- The ceiling of a plugin under the policy of the settings, once more has been allowed. -/
def ceiling (s : PluginSettings) (entries : List (String × Mask)) (id : String)
    (manifest : Option Mask) : Mask :=
  (s.toPolicy.allowAll entries).ceiling id manifest

/-- The settings without the names that no capability has. -/
def withoutUnknown (s : PluginSettings) : PluginSettings :=
  { s with grants := s.grants.map fun g =>
      (g.1, g.2.filter fun name => (Capability.ofName? name).isSome) }

end PluginSettings

/-! ## Names -/

theorem Capability.getLsbD_flag (c : Capability) (i : Nat) :
    c.flag.getLsbD i = true ↔ c.index = i := by
  have width : c.index < 64 := Nat.lt_of_lt_of_le c.index_lt (by decide)
  rw [flag, BitVec.getLsbD_twoPow, Bool.and_eq_true, decide_eq_true_eq, decide_eq_true_eq]
  exact and_iff_right_of_imp fun _ => width

namespace Mask

variable {names : List String} {i : Nat}

theorem ofNames_cons (name : String) (names : List String) : ofNames (name :: names) =
    match Capability.ofName? name with
    | some c => (c.flag ||| (ofNames names).1, (ofNames names).2)
    | none => ((ofNames names).1, name :: (ofNames names).2) := rfl

/-- A bit comes of a list of names if its capability is named. -/
theorem mem_ofNames :
    (ofNames names).1.getLsbD i = true ↔ ∃ c : Capability, c.name ∈ names ∧ c.index = i := by
  induction names with
  | nil => simp
  | cons name names ih =>
    rw [ofNames_cons]
    cases known : Capability.ofName? name with
    | some c =>
      obtain rfl := Capability.ofName?_eq_some_iff.mp known
      simp only [BitVec.getLsbD_or, Bool.or_eq_true, ih, Capability.getLsbD_flag, List.mem_cons,
        or_and_right, exists_or]
      refine or_congr_left ⟨fun here => ⟨c, rfl, here⟩, ?_⟩
      rintro ⟨d, same, rfl⟩
      rw [Capability.name_injective same]
    | none =>
      have other (c : Capability) : c.name ≠ name := fun same =>
        Option.some_ne_none c (by rw [← Capability.ofName?_name c, same, known])
      simp only [ih, List.mem_cons, other, false_or]

/-- Lists of names may be read one by one. -/
theorem ofNames_append (a b : List String) :
    ofNames (a ++ b) = ((ofNames a).1 ||| (ofNames b).1, (ofNames a).2 ++ (ofNames b).2) := by
  induction a with
  | nil => simp
  | cons name a ih =>
    rw [List.cons_append, ofNames_cons, ofNames_cons, ih]
    cases Capability.ofName? name with
    | some c => rw [BitVec.or_assoc]
    | none => rfl

end Mask

/-! ## Entries -/

namespace Policy

variable {p : Policy} {id : String} {i : Nat}

@[simp] theorem allowAll_mode (p : Policy) (entries : List (String × Mask)) :
    (p.allowAll entries).mode = p.mode := by
  induction entries generalizing p with
  | nil => rfl
  | cons e entries ih => exact ih (p.allow e.1 e.2)

/-- An id is allowed a bit after some entries if it was before, or if an entry of its own has
the bit. -/
theorem mem_maskOf_allowAll (p : Policy) (entries : List (String × Mask)) :
    (maskOf id (p.allowAll entries).allowed).getLsbD i = true ↔
      (maskOf id p.allowed).getLsbD i = true ∨ ∃ m, (id, m) ∈ entries ∧ m.getLsbD i = true := by
  induction entries generalizing p with
  | nil => simp [allowAll]
  | cons e entries ih =>
    obtain ⟨other, m⟩ := e
    rw [show p.allowAll ((other, m) :: entries) = (p.allow other m).allowAll entries from rfl, ih]
    by_cases own : other = id
    · subst own
      simp only [allow, maskOf_widen_self, BitVec.getLsbD_or, Bool.or_eq_true, or_assoc,
        List.mem_cons, Prod.mk.injEq, true_and, or_and_right, exists_or, exists_eq_left]
    · simp only [allow, maskOf_widen_of_ne (Ne.symm own), List.mem_cons, Prod.mk.injEq,
        Ne.symm own, false_and, false_or]

/-- The grants of settings are entries like others, once their names are read. -/
theorem ofGrants_eq (mode : PolicyMode) (grants : List (String × List String)) :
    ofGrants mode grants =
      allowAll { mode } (grants.map fun g => (g.1, (Mask.ofNames g.2).1)) := by
  rw [ofGrants, allowAll, List.foldl_map]

end Policy

/-! ## Ceilings -/

namespace PluginSettings

variable {s : PluginSettings} {entries : List (String × Mask)} {id : String}
  {manifest : Option Mask} {i : Nat}

@[simp] theorem toPolicy_mode (s : PluginSettings) : s.toPolicy.mode = s.policy := by
  rw [toPolicy, Policy.ofGrants_eq, Policy.allowAll_mode]

/-- An id is allowed by the settings what they list under it. -/
theorem mem_maskOf_toPolicy :
    (Policy.maskOf id s.toPolicy.allowed).getLsbD i = true ↔ ∃ c, s.Names id c ∧ c.index = i := by
  rw [toPolicy, Policy.ofGrants_eq, Policy.mem_maskOf_allowAll]
  simp only [Policy.maskOf, BitVec.getLsbD_zero, Bool.false_eq_true, false_or, List.mem_map,
    Prod.mk.injEq, Names]
  constructor
  · rintro ⟨_, ⟨⟨_, names⟩, listed, rfl, rfl⟩, bit⟩
    obtain ⟨c, named, place⟩ := Mask.mem_ofNames.mp bit
    exact ⟨c, ⟨names, listed, named⟩, place⟩
  · rintro ⟨c, ⟨names, listed, named⟩, place⟩
    exact ⟨_, ⟨(id, names), listed, rfl, rfl⟩, Mask.mem_ofNames.mpr ⟨c, named, place⟩⟩

theorem mem_getD_manifest :
    (manifest.getD 0#64).getLsbD i = true ↔ ∃ m, manifest = some m ∧ m.getLsbD i = true := by
  cases manifest <;> simp

theorem ceiling_of_permissive (permissive : s.policy = .permissive) :
    s.ceiling entries id manifest = Mask.known := by
  simp [ceiling, Policy.ceiling, permissive]

/-- The bits of a ceiling, from the three sides that they may come from. -/
theorem mem_ceiling (least : s.policy = .leastPrivilege) :
    (s.ceiling entries id manifest).getLsbD i = true ↔
      (∃ c, s.Names id c ∧ c.index = i) ∨ (∃ m, (id, m) ∈ entries ∧ m.getLsbD i = true) ∨
        ∃ m, manifest = some m ∧ m.getLsbD i = true := by
  have mode : (s.toPolicy.allowAll entries).mode = .leastPrivilege := by simp [least]
  rw [ceiling, Policy.ceiling, mode]
  simp only [BitVec.getLsbD_or, Bool.or_eq_true, Policy.mem_maskOf_allowAll, mem_maskOf_toPolicy,
    mem_getD_manifest, or_assoc]

/-- A ceiling depends on the mode, the capabilities that are named for the id, and the entries of
the id. -/
theorem ceiling_congr {s' : PluginSettings} {entries' : List (String × Mask)}
    (mode : s'.policy = s.policy) (named : ∀ c, s'.Names id c ↔ s.Names id c)
    (allowed : ∀ m, (id, m) ∈ entries' ↔ (id, m) ∈ entries) :
    s'.ceiling entries' id manifest = s.ceiling entries id manifest := by
  cases policy : s.policy with
  | permissive => rw [ceiling_of_permissive policy, ceiling_of_permissive (mode.trans policy)]
  | leastPrivilege =>
    refine Mask.eq_iff_bits.mpr fun i => ?_
    rw [mem_ceiling policy, mem_ceiling (mode.trans policy)]
    simp only [named, allowed]

/-- Names that no capability has add nothing. -/
theorem withoutUnknown_names (id : String) (c : Capability) :
    s.withoutUnknown.Names id c ↔ s.Names id c := by
  simp only [Names, withoutUnknown, List.mem_map, Prod.mk.injEq]
  constructor
  · rintro ⟨_, ⟨⟨_, names⟩, listed, rfl, rfl⟩, named⟩
    exact ⟨names, listed, (List.mem_filter.mp named).1⟩
  · rintro ⟨names, listed, named⟩
    exact ⟨_, ⟨(id, names), listed, rfl, rfl⟩, List.mem_filter.mpr ⟨named, by simp⟩⟩

end PluginSettings

/-- **Ceilings are exact.** Under the policy of some settings, with more that is allowed beside
them:
* in permissive mode a plugin may hold the ten known bits, and no others;
* in least-privilege mode it may hold a bit exactly if its capability is named in the grants of
  its id, or if the bit is in a mask that this very id is allowed, or in the mask of its manifest;
* the order and repetition of what is allowed have no part in this, and of the grants nothing
  has but which capabilities are named for the id;
* an entry for another id changes nothing, whether it is allowed or in the grants;
* nor do names that no capability has;
* a list of names that is put together from two comes to the union of their masks, and its
  unknown names are those of the first and then those of the second. -/
theorem ceilings_are_exact (s : PluginSettings) (entries : List (String × Mask)) (id : String)
    (manifest : Option Mask) :
    let ceiling := s.ceiling entries id manifest
    (s.policy = .permissive → ∀ i, ceiling.getLsbD i = true ↔ i < 10) ∧
    (s.policy = .leastPrivilege → ∀ i, ceiling.getLsbD i = true ↔
      (∃ c, s.Names id c ∧ c.index = i) ∨ (∃ m, (id, m) ∈ entries ∧ m.getLsbD i = true) ∨
        ∃ m, manifest = some m ∧ m.getLsbD i = true) ∧
    (∀ entries', (∀ e, e ∈ entries' ↔ e ∈ entries) →
      s.ceiling entries' id manifest = ceiling) ∧
    (∀ s' : PluginSettings, s'.policy = s.policy → (∀ c, s'.Names id c ↔ s.Names id c) →
      s'.ceiling entries id manifest = ceiling) ∧
    (∀ other, other ≠ id →
      (∀ m before after, entries = before ++ after →
        s.ceiling (before ++ (other, m) :: after) id manifest = ceiling) ∧
      ∀ names before after, s.grants = before ++ after →
        { s with grants := before ++ (other, names) :: after }.ceiling entries id manifest =
          ceiling) ∧
    s.withoutUnknown.ceiling entries id manifest = ceiling ∧
    (∀ a b, Mask.ofNames (a ++ b) =
      ((Mask.ofNames a).1 ||| (Mask.ofNames b).1, (Mask.ofNames a).2 ++ (Mask.ofNames b).2)) := by
  intro ceiling
  refine ⟨fun permissive i => ?_, fun least i => PluginSettings.mem_ceiling least,
    fun entries' same => ?_, fun s' mode named => ?_, fun other apart => ⟨?_, ?_⟩, ?_,
    Mask.ofNames_append⟩
  · rw [show ceiling = Mask.known from PluginSettings.ceiling_of_permissive permissive,
      Mask.getLsbD_known, decide_eq_true_eq]
  · exact PluginSettings.ceiling_congr rfl (fun _ => .rfl) fun m => same (id, m)
  · exact PluginSettings.ceiling_congr mode named fun _ => .rfl
  · rintro m before after rfl
    refine PluginSettings.ceiling_congr rfl (fun _ => .rfl) fun m => ?_
    simp only [List.mem_append, List.mem_cons, Prod.mk.injEq, apart.symm, false_and, false_or]
  · intro names before after grants
    refine PluginSettings.ceiling_congr rfl (fun c => ?_) fun _ => .rfl
    simp only [PluginSettings.Names, grants, List.mem_append, List.mem_cons, Prod.mk.injEq,
      apart.symm, false_and, false_or]
  · exact PluginSettings.ceiling_congr rfl (PluginSettings.withoutUnknown_names id) fun _ => .rfl

namespace Listed

/-- Settings with a name twice, and one that no capability has. -/
def settings : PluginSettings :=
  { grants := [("org.listed", ["storage-read", "telepathy", "storage-read"]),
      ("org.other", ["ui-panel"])] }

/-- What is allowed beside the settings, with a bit that no capability owns. -/
def entries : List (String × Mask) :=
  [("org.other", 2#64), ("org.listed", 0x400#64), ("org.other", 4#64)]

end Listed

/-- A plugin that is granted something on each of the three sides, and nothing of what another
is granted. -/
theorem listed_ceiling_is_exact :
    let ceiling := Listed.settings.ceiling Listed.entries "org.listed" (some 0x20#64)
    ceiling = 0x421#64 ∧ ceiling.getLsbD 10 = true ∧
      Listed.settings.ceiling Listed.entries.reverse "org.listed" (some 0x20#64) = 0x421#64 ∧
      Listed.settings.ceiling (("org.other", 8#64) :: Listed.entries) "org.listed"
        (some 0x20#64) = 0x421#64 := by
  obtain ⟨-, bits, order, -, others, -⟩ :=
    ceilings_are_exact Listed.settings Listed.entries "org.listed" (some 0x20#64)
  have value :
      Listed.settings.ceiling Listed.entries "org.listed" (some 0x20#64) = 0x421#64 := by
    decide +kernel
  have other : "org.other" ≠ "org.listed" := by decide
  refine ⟨value, (bits rfl 10).mpr (.inr (.inl ⟨0x400#64, ?_, by decide⟩)), ?_, ?_⟩
  · exact List.mem_cons_of_mem _ List.mem_cons_self
  · exact (order _ fun _ => List.mem_reverse).trans value
  · exact ((others _ other).1 8#64 [] Listed.entries rfl).trans value

end PluginHost
