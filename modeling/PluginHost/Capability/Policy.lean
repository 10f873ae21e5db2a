import PluginHost.Capability.Basic

/-!
# Capability policy

The host decides which capabilities a plugin may ever hold: its ceiling. A
permissive policy gives every plugin all ten. A least-privilege policy gives a
plugin what the operator allows its id, and what its own verified manifest
declares.

* `Policy.allow` widens what one id is allowed and leaves every other id alone.
* `Policy.ceiling` is the most that a plugin may hold.
-/

namespace PluginHost

/-- How ceilings are decided. -/
inductive PolicyMode
  | leastPrivilege
  | permissive
  deriving DecidableEq, Repr, Inhabited

namespace PolicyMode

def name : PolicyMode → String
  | .leastPrivilege => "least-privilege"
  | .permissive => "permissive"

/-- The name of a mode in diagnostics. -/
def symbol : PolicyMode → String
  | .leastPrivilege => "LeastPrivilege"
  | .permissive => "Permissive"

/-- The mode that an operator names; each has a second name. -/
def ofName? (s : String) : Option PolicyMode :=
  if s = "least-privilege" ∨ s = "deny" then some .leastPrivilege
  else if s = "permissive" ∨ s = "allow-all" then some .permissive
  else none

def unknownName (s : String) : String :=
  s!"unknown capability policy '{s}'"

@[simp] theorem ofName?_name (m : PolicyMode) : ofName? m.name = some m := by
  cases m <;> decide

end PolicyMode

/-- A mode, and what each id is allowed. An id stands in the list at most once
when the list is built by `allow`. -/
structure Policy where
  mode : PolicyMode := .leastPrivilege
  allowed : List (String × Mask) := []
  deriving DecidableEq, Repr, Inhabited

namespace Policy

/-- The list with `m` added to the mask of `id`. -/
def widen (id : String) (m : Mask) : List (String × Mask) → List (String × Mask)
  | [] => [(id, m)]
  | (i, n) :: rest => if i = id then (i, n ||| m) :: rest else (i, n) :: widen id m rest

/-- The mask of `id`; empty if there is none. -/
def maskOf (id : String) : List (String × Mask) → Mask
  | [] => 0#64
  | (i, n) :: rest => if i = id then n else maskOf id rest

/-- The policy under which `id` is allowed the bits of `m` as well. -/
def allow (p : Policy) (id : String) (m : Mask) : Policy :=
  { p with allowed := widen id m p.allowed }

/-- The policy of a mode and of lists of capability names by id. Names of no
capability are ignored. -/
def ofGrants (mode : PolicyMode) (grants : List (String × List String)) : Policy :=
  grants.foldl (fun p g => p.allow g.1 (Mask.ofNames g.2).1) { mode }

/-- The most that plugin `id` may hold, given the capabilities of its verified
manifest, if it has one. -/
def ceiling (p : Policy) (id : String) (manifest : Option Mask) : Mask :=
  match p.mode with
  | .permissive => Mask.known
  | .leastPrivilege => maskOf id p.allowed ||| manifest.getD 0#64

@[simp] theorem maskOf_widen_self (id : String) (m : Mask) (l : List (String × Mask)) :
    maskOf id (widen id m l) = maskOf id l ||| m := by
  induction l with
  | nil => simp [widen, maskOf]
  | cons h t ih =>
    obtain ⟨i, n⟩ := h
    by_cases e : i = id <;> simp [widen, maskOf, e, ih]

theorem maskOf_widen_of_ne {id other : String} (h : other ≠ id) (m : Mask)
    (l : List (String × Mask)) : maskOf other (widen id m l) = maskOf other l := by
  induction l with
  | nil => simp [widen, maskOf, Ne.symm h]
  | cons g t ih =>
    obtain ⟨i, n⟩ := g
    by_cases e : i = id
    · subst e; simp [widen, maskOf, Ne.symm h]
    · simp [widen, maskOf, e, ih]

end Policy

end PluginHost
