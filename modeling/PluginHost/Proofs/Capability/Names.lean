import PluginHost.Proofs.Capability.Ceiling
import PluginHost.Proofs.Text.Split

/-!
# Masks as names

A mask is written as the names of its capabilities, and the bits that no capability owns have no
name. So names tell the known part of a mask, whatever else is in it. The text in listings does
so too, but for one case: a mask that holds other bits only is not empty, and is not written as
`none`, but it has no names either, and what is left is an empty text.

* `Mask.listed` are the names in a text.
* `Mask.Tells` says that the text of a mask tells its capabilities.

Results:
1. `Mask.ofNames_names`: names read back.
2. `Mask.listed_display`: so does the text of a mask that has names.
3. `Mask.mask_texts_read_back`: which texts tell the capabilities of their masks.
4. `Mask.foreign_bits_read_blank`: a text that does not.
-/

namespace PluginHost.Mask

/-! ## Definitions -/

/-- The names in a text that separates them by commas. -/
def listed (text : String) : List String :=
  (splitOn ',' text.toList).map String.ofList

/-- The text of the mask tells its capabilities: it is `none` where there are none, and else it
lists names that come to the known part of the mask, each of them known. -/
def Tells (m : Mask) : Prop :=
  (m.knownPart = 0#64 → m.display = "none") ∧
    (m.knownPart ≠ 0#64 → ofNames (listed m.display) = (m.knownPart, []))

variable {m : Mask} {name : String} {names : List String} {i : Nat}

/-! ## Names -/

theorem mem_knownPart : m.knownPart.getLsbD i = true ↔ m.getLsbD i = true ∧ i < 10 := by
  rw [knownPart, BitVec.getLsbD_and, getLsbD_known, Bool.and_eq_true, decide_eq_true_eq]

/-- Each of the known bits is owned by a capability. -/
theorem exists_index_iff : (∃ c : Capability, c.index = i) ↔ i < 10 := by
  constructor
  · rintro ⟨c, rfl⟩
    exact c.index_lt
  · intro small
    have all : ∀ i : Fin 10, ∃ c ∈ Capability.all, c.index = i := by decide
    obtain ⟨c, -, index⟩ := all ⟨i, small⟩
    exact ⟨c, index⟩

theorem mem_names : name ∈ m.names ↔ ∃ c : Capability, m.has c = true ∧ c.name = name := by
  simp only [names, List.mem_map, List.mem_filter, Capability.mem_all, true_and]

/-- Names of capabilities are all known. -/
theorem unknown_of_named (named : ∀ name ∈ names, ∃ c : Capability, c.name = name) :
    (ofNames names).2 = [] := by
  induction names with
  | nil => rfl
  | cons name names ih =>
    obtain ⟨⟨c, rfl⟩, others⟩ := List.forall_mem_cons.mp named
    rw [ofNames_cons, Capability.ofName?_name]
    exact ih others

/-- The names of a mask come to its known part. -/
theorem ofNames_names (m : Mask) : ofNames m.names = (m.knownPart, []) := by
  refine Prod.ext (eq_iff_bits.mpr fun i => ?_) (unknown_of_named fun name hname => ?_)
  · rw [mem_ofNames, mem_knownPart, ← exists_index_iff]
    constructor
    · rintro ⟨c, named, rfl⟩
      obtain ⟨d, held, same⟩ := mem_names.mp named
      rw [Capability.name_injective same] at held
      exact ⟨has_iff.mp held, c, rfl⟩
    · rintro ⟨held, c, rfl⟩
      exact ⟨c, mem_names.mpr ⟨c, has_iff.mpr held, rfl⟩, rfl⟩
  · obtain ⟨c, -, same⟩ := mem_names.mp hname
    exact ⟨c, same⟩

/-- A mask has names if it has known bits. -/
theorem names_eq_nil_iff : m.names = [] ↔ m.knownPart = 0#64 := by
  have known := congrArg Prod.fst (ofNames_names m)
  constructor
  · intro none
    rw [none] at known
    exact known.symm
  · intro zero
    rw [List.eq_nil_iff_forall_not_mem]
    intro name hname
    obtain ⟨c, held, rfl⟩ := mem_names.mp hname
    have bit := mem_ofNames.mpr ⟨c, hname, rfl⟩
    rw [known, zero, BitVec.getLsbD_zero] at bit
    cases bit

/-! ## Texts -/

theorem comma_not_mem_name (c : Capability) : ',' ∉ c.name.toList := by
  cases c <;> decide

/-- What is listed is what was put together. -/
theorem listed_intercalate (some : names ≠ []) (plain : ∀ name ∈ names, ',' ∉ name.toList) :
    listed (",".intercalate names) = names := by
  have parts : names.map String.toList ≠ [] := mt List.map_eq_nil_iff.mp some
  have comma : ",".toList = [','] := rfl
  rw [listed, String.toList_intercalate, comma, intercalate_eq_joinWith,
    splitOn_joinWith parts (by simpa using plain), List.map_map]
  exact (List.map_congr_left fun name _ => String.ofList_toList).trans (List.map_id names)

/-- The text of a mask that has names lists them. -/
theorem listed_display (known : m.knownPart ≠ 0#64) : listed m.display = m.names := by
  have some : m ≠ 0#64 := by
    rintro rfl
    exact known BitVec.zero_and
  rw [display, if_neg some]
  refine listed_intercalate (mt names_eq_nil_iff.mp known) fun name hname => ?_
  obtain ⟨c, -, rfl⟩ := mem_names.mp hname
  exact comma_not_mem_name c

/-- The text of a mask that has other bits only is empty. -/
theorem display_of_unknown (some : m ≠ 0#64) (unknown : m.knownPart = 0#64) : m.display = "" := by
  rw [display, if_neg some, names_eq_nil_iff.mpr unknown]
  rfl

/-- The names of a mask come to its known part, each of them known. Its text tells the same, unless
the mask is made of bits that no capability owns: then the text is empty, and what it lists is one
name, the empty one, which nobody knows. -/
theorem mask_texts_read_back (m : Mask) :
    ofNames m.names = (m.knownPart, []) ∧
      (m.Tells ↔ m = 0#64 ∨ m.knownPart ≠ 0#64) ∧
      (m ≠ 0#64 → m.knownPart = 0#64 →
        m.display = "" ∧ ofNames (listed m.display) = (m.knownPart, [""])) := by
  refine ⟨ofNames_names m, ⟨fun tells => ?_, ?_⟩, fun some unknown => ?_⟩
  · by_cases known : m.knownPart = 0#64
    · refine .inl (Classical.byContradiction fun some => ?_)
      have text := tells.1 known
      rw [display_of_unknown some known] at text
      exact absurd text (by decide)
    · exact .inr known
  · rintro (rfl | known)
    · exact ⟨fun _ => rfl, fun some => absurd BitVec.zero_and some⟩
    · refine ⟨fun none => absurd none known, fun _ => ?_⟩
      rw [listed_display known, ofNames_names]
  · have empty := display_of_unknown some unknown
    rw [empty, unknown]
    exact ⟨rfl, rfl⟩

/-- A bit that no capability owns is enough to make a text that does not tell that there are no
capabilities. -/
theorem foreign_bits_read_blank : ¬ ∀ m : Mask, m.Tells := by
  intro tells
  have text := (tells 1024#64).1 (by decide)
  exact absurd text (by decide)

end PluginHost.Mask
