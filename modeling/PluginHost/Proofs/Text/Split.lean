import Mathlib.Data.List.TakeWhile
import PluginHost.Text.Split

/-!
# Texts that are cut and put together

Results:
1. `takeWhile_of_ends`: a word is taken off the front of a text up to where it ends.
2. `splitOn_append`: a text is cut at a separator wherever it stands.
3. `mem_of_mem_splitOn` and `mem_of_mem_joinWith`: cutting and putting together makes no
   characters, but for separators.
4. `joinWith_isPrefix`: the first parts of a text are how it begins.
5. `splitOn_joinWith`: parts that are put together are cut into the same parts.
-/

namespace PluginHost

variable {sep c : Char} {cs rest part : List Char} {parts : List (List Char)}

/-- What a reader of a word makes of one that ends. -/
theorem takeWhile_of_ends {p : Char → Bool} (all : ∀ c ∈ cs, p c = true)
    (ends : ∀ c ∈ rest.head?, p c = false) :
    (cs ++ rest).takeWhile p = cs ∧ (cs ++ rest).dropWhile p = rest := by
  cases rest with
  | nil =>
    rw [List.append_nil]
    exact ⟨List.takeWhile_eq_self_iff.mpr all, List.dropWhile_eq_nil_iff.mpr all⟩
  | cons c rest =>
    have stops : ¬p c = true := by simp [ends c rfl]
    rw [List.takeWhile_append_of_pos all, List.dropWhile_append_of_pos all,
      List.takeWhile_cons_of_neg stops, List.dropWhile_cons_of_neg stops, List.append_nil]
    exact ⟨rfl, rfl⟩

theorem splitOn_of_not_mem (none : sep ∉ cs) :
    splitOn sep cs = [cs] := by
  have one := length_splitOn sep cs
  rw [List.count_eq_zero.mpr none] at one
  obtain ⟨part, eq⟩ := List.length_eq_one_iff.mp one
  have whole := joinWith_splitOn sep cs
  rw [eq] at whole ⊢
  exact congrArg ([·]) whole

theorem splitOn_cons_sep : splitOn sep (sep :: cs) = [] :: splitOn sep cs :=
  if_pos rfl

theorem splitOn_cons_of_ne (other : c ≠ sep) (split : splitOn sep cs = part :: parts) :
    splitOn sep (c :: cs) = (c :: part) :: parts := by
  rw [splitOn, if_neg other, split]

/-- A text is cut at a separator on its own, whatever stands on either side. -/
theorem splitOn_append (cs rest : List Char) :
    splitOn sep (cs ++ sep :: rest) = splitOn sep cs ++ splitOn sep rest := by
  induction cs with
  | nil => exact splitOn_cons_sep
  | cons c cs ih =>
    obtain ⟨part, parts, split⟩ := List.exists_cons_of_ne_nil (splitOn_ne_nil sep cs)
    by_cases same : c = sep
    · rw [same, List.cons_append, splitOn_cons_sep, splitOn_cons_sep, ih, List.cons_append]
    · rw [split] at ih
      rw [List.cons_append, splitOn_cons_of_ne same split, splitOn_cons_of_ne same ih]
      rfl

/-- A part has characters of the text, and no separator. -/
theorem mem_of_mem_splitOn (hpart : part ∈ splitOn sep cs) (hc : c ∈ part) : c ∈ cs ∧ c ≠ sep := by
  induction cs generalizing part with
  | nil =>
    rw [List.mem_singleton.mp hpart] at hc
    cases hc
  | cons d cs ih =>
    obtain ⟨first, parts, split⟩ := List.exists_cons_of_ne_nil (splitOn_ne_nil sep cs)
    by_cases same : d = sep
    · rw [same, splitOn_cons_sep] at hpart
      rcases List.mem_cons.mp hpart with rfl | hpart
      · cases hc
      · obtain ⟨there, other⟩ := ih hpart hc
        exact ⟨List.mem_cons_of_mem _ there, other⟩
    · rw [splitOn_cons_of_ne same split] at hpart
      rw [split] at ih
      rcases List.mem_cons.mp hpart with rfl | hpart
      · rcases List.mem_cons.mp hc with rfl | hc
        · exact ⟨List.mem_cons_self, same⟩
        · obtain ⟨there, other⟩ := ih List.mem_cons_self hc
          exact ⟨List.mem_cons_of_mem _ there, other⟩
      · obtain ⟨there, other⟩ := ih (List.mem_cons_of_mem _ hpart) hc
        exact ⟨List.mem_cons_of_mem _ there, other⟩

/-- What is put together has the characters of its parts, and separators. -/
theorem mem_of_mem_joinWith (hc : c ∈ joinWith sep parts) :
    c = sep ∨ ∃ part ∈ parts, c ∈ part := by
  induction parts with
  | nil => cases hc
  | cons first parts ih =>
    cases parts with
    | nil => exact .inr ⟨first, List.mem_cons_self, hc⟩
    | cons second parts =>
      rcases List.mem_append.mp hc with hc | hc
      · exact .inr ⟨first, List.mem_cons_self, hc⟩
      rcases List.mem_cons.mp hc with same | hc
      · exact .inl same
      rcases ih hc with same | ⟨part, there, hc⟩
      · exact .inl same
      · exact .inr ⟨part, List.mem_cons_of_mem _ there, hc⟩

theorem joinWith_cons (part : List Char) (parts : List (List Char)) :
    joinWith sep (part :: parts) = part ++ (parts.map (sep :: ·)).flatten := by
  induction parts generalizing part with
  | nil => simp [joinWith]
  | cons next parts ih => simp [joinWith, ih next]

theorem intercalate_eq_joinWith (sep : Char) (parts : List (List Char)) :
    [sep].intercalate parts = joinWith sep parts := by
  induction parts with
  | nil => rfl
  | cons first parts ih =>
    cases parts with
    | nil => simp [joinWith]
    | cons next parts =>
      rw [List.intercalate_cons_cons, ih, List.append_assoc]
      rfl

/-- The first parts of a text are how it begins. -/
theorem joinWith_isPrefix {front : List (List Char)} (first : front <+: parts) :
    joinWith sep front <+: joinWith sep parts := by
  cases front with
  | nil => exact List.nil_prefix
  | cons part front =>
    obtain ⟨back, rfl⟩ := first
    rw [List.cons_append, joinWith_cons, joinWith_cons, List.prefix_append_right_inj,
      List.map_append, List.flatten_append]
    exact List.prefix_append _ _

theorem joinWith_concat (some : parts ≠ []) (part : List Char) :
    joinWith sep (parts ++ [part]) = joinWith sep parts ++ sep :: part := by
  obtain ⟨first, more, rfl⟩ := List.exists_cons_of_ne_nil some
  rw [List.cons_append, joinWith_cons, joinWith_cons]
  simp

/-- Parts without separators are cut where they were put together. -/
theorem splitOn_joinWith (nonempty : parts ≠ []) (plain : ∀ part ∈ parts, sep ∉ part) :
    splitOn sep (joinWith sep parts) = parts := by
  induction parts with
  | nil => exact absurd rfl nonempty
  | cons first parts ih =>
    obtain ⟨here, there⟩ := List.forall_mem_cons.mp plain
    cases parts with
    | nil => exact splitOn_of_not_mem here
    | cons next parts =>
      have step : joinWith sep (first :: next :: parts) =
          first ++ sep :: joinWith sep (next :: parts) := rfl
      rw [step, splitOn_append, splitOn_of_not_mem here, ih (List.cons_ne_nil next parts) there]
      rfl

end PluginHost
