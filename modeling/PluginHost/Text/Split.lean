/-!
# Parts of a text

A text is cut at every occurrence of a separator. There is one part more than
there are separators, and joining the parts gives the text back.
-/

namespace PluginHost

/-- The parts between the separators. -/
def splitOn (sep : Char) : List Char → List (List Char)
  | [] => [[]]
  | c :: rest =>
    if c = sep then [] :: splitOn sep rest
    else match splitOn sep rest with
      | [] => [[c]]
      | part :: parts => (c :: part) :: parts

def joinWith (sep : Char) : List (List Char) → List Char
  | [] => []
  | [part] => part
  | part :: parts => part ++ sep :: joinWith sep parts

theorem splitOn_ne_nil (sep : Char) (cs : List Char) : splitOn sep cs ≠ [] := by
  cases cs with
  | nil => simp [splitOn]
  | cons c rest =>
    unfold splitOn
    split
    · simp
    · split <;> simp

theorem joinWith_splitOn (sep : Char) (cs : List Char) : joinWith sep (splitOn sep cs) = cs := by
  induction cs with
  | nil => rfl
  | cons c rest ih =>
    unfold splitOn
    by_cases h : c = sep
    · subst h
      rw [if_pos rfl]
      cases e : splitOn c rest with
      | nil => exact absurd e (splitOn_ne_nil _ _)
      | cons p ps => rw [e] at ih; simp [joinWith, ih]
    · rw [if_neg h]
      cases e : splitOn sep rest with
      | nil => exact absurd e (splitOn_ne_nil _ _)
      | cons p ps =>
        rw [e] at ih
        cases ps with
        | nil => simp_all [joinWith]
        | cons q qs => simp only [joinWith, List.cons_append] at ih ⊢; rw [ih]

theorem length_splitOn (sep : Char) (cs : List Char) :
    (splitOn sep cs).length = cs.count sep + 1 := by
  induction cs with
  | nil => rfl
  | cons c rest ih =>
    unfold splitOn
    by_cases h : c = sep
    · subst h; simp [ih]
    · rw [if_neg h]
      cases e : splitOn sep rest with
      | nil => exact absurd e (splitOn_ne_nil _ _)
      | cons p ps => rw [e] at ih; simp_all

end PluginHost
