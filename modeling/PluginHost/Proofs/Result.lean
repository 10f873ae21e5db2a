/-!
# Steps that can fail

What is known when steps that can fail have all succeeded.

Results:
1. `bind_eq_ok_iff`, `map_eq_ok_iff`, `toOption_eq_some_iff` and `bind_ok`: a step and what is
   made of it.
2. `foldlM_keeps`: an invariant of steps that are made one after the other.
-/

namespace PluginHost

variable {ε α β : Type}

theorem bind_eq_ok_iff {x : Except ε α} {f : α → Except ε β} {b : β} :
    (x >>= f) = .ok b ↔ ∃ a, x = .ok a ∧ f a = .ok b := by
  cases x <;> simp [bind, Except.bind]

theorem map_eq_ok_iff {x : Except ε α} {f : α → β} {b : β} :
    x.map f = .ok b ↔ ∃ a, x = .ok a ∧ f a = b := by
  cases x <;> simp [Except.map]

theorem toOption_eq_some_iff {x : Except ε α} {a : α} : x.toOption = some a ↔ x = .ok a := by
  cases x <;> simp [Except.toOption]

/-- What is made of a step that succeeds. -/
theorem bind_ok {x : Except ε α} {a : α} (ok : x = .ok a) (f : α → β) :
    (x >>= fun a => .ok (f a)) = Except.ok (f a) := by
  rw [ok]
  rfl

/-- What every step keeps is kept by all of them. -/
theorem foldlM_keeps {P : α → Prop} {f : α → β → Except ε α} {bs : List β} {a a' : α}
    (step : ∀ b ∈ bs, ∀ a a', P a → f a b = .ok a' → P a') (start : P a)
    (done : bs.foldlM f a = .ok a') : P a' := by
  induction bs generalizing a with
  | nil => exact Except.ok.inj done ▸ start
  | cons b bs ih =>
    obtain ⟨one, others⟩ := List.forall_mem_cons.mp step
    rw [List.foldlM_cons] at done
    obtain ⟨a₁, first, rest⟩ := bind_eq_ok_iff.mp done
    exact ih others (one a a₁ start first) rest

end PluginHost
