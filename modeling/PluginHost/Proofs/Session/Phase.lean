import Mathlib.Data.List.Induction
import PluginHost.Proofs.Session.Step

/-!
# The phases of a module

What the journal says of one module, read as a run of a small machine: the module is
opened, asked who it is, started until it accepts, handed events, stopped, and closed.
The host may answer it from its opening until its closing.

* `Phase.next` is the machine, and `phase` runs it over the journal.
* `Lifecycle` says what a whole life of a module looks like, entry by entry.

Results:
1. `Tally.ofPhase`: the phase determines how often a module was opened, accepted to
   start, was stopped and closed.
2. `Lifecycle.ofPhase`: a module that has come to the last phase has lived as it should.
-/

namespace PluginHost

/-! ## Definitions -/

/-- How far the life of a module has come. -/
inductive Phase
  | unopened
  | idle
  | starting
  | running
  | stopped
  | closed
  deriving DecidableEq, Repr

namespace Phase

/-- The module is open. -/
def isOpen : Phase → Bool
  | .unopened => false
  | .closed => false
  | _ => true

/-- The phase after an entry about the module; an entry that is out of place has none. -/
def next : Phase → Entry → Option Phase
  | .unopened, .opened _ => some .idle
  | .idle, .asked _ _ => some .idle
  | .idle, .starting _ _ => some .starting
  | .starting, .started _ accepted => some (if accepted then .running else .idle)
  | .running, .event _ _ _ => some .running
  | .running, .stopped _ => some .stopped
  | .idle, .closed _ => some .closed
  | .stopped, .closed _ => some .closed
  | φ, .answered _ _ _ => if φ.isOpen then some φ else none
  -- Any other entry is out of place.
  | _, _ => none

/-- The phase of the module `h` after an entry about any module. -/
def advance (h : Handle) (φ : Phase) (e : Entry) : Option Phase :=
  if e.handle = h then φ.next e else some φ

/-- The phase of the module `h` after some entries. -/
def follow (h : Handle) (φ : Phase) (entries : List Entry) : Option Phase :=
  entries.foldlM (advance h) φ

end Phase

/-- The phase of a module, if all that is noted of it is in place. -/
def phase (h : Handle) (journal : List Entry) : Option Phase :=
  Phase.follow h .unopened journal

/-- `Lifecycle h journal`: the module `h` has lived its whole life.

* `opened_once`, `closed_once`: it was opened once and closed once.
* `while_open`: whatever else is noted of it, each question about itself, each start,
  event and stop, and each answer of the host, comes after the opening and before the
  closing.
* `not_restarted`: once it has accepted a start it is not started again.
* `events_running`: it is handed events only after it accepted a start and before it is
  stopped.
* `stopped_once`: it was stopped once if it accepted a start, and never otherwise.
* `stopped_last`: no event comes after the stop. -/
structure Lifecycle (h : Handle) (journal : List Entry) : Prop where
  opened_once : journal.count (.opened h) = 1
  closed_once : journal.count (.closed h) = 1
  while_open : ∀ before e after, journal = before ++ e :: after → e.handle = h →
    e ≠ .opened h → e ≠ .closed h → .opened h ∈ before ∧ .closed h ∈ after
  not_restarted : ∀ before after, journal = before ++ .started h true :: after →
    ∀ bound, .starting h bound ∉ after
  events_running : ∀ before type payload after,
    journal = before ++ .event h type payload :: after →
    .started h true ∈ before ∧ .stopped h ∉ before
  stopped_once : journal.count (.stopped h) = if .started h true ∈ journal then 1 else 0
  stopped_last : ∀ before after, journal = before ++ .stopped h :: after →
    ∀ type payload, .event h type payload ∉ after

/-- How often a module was opened, closed, accepted to start and was stopped, by its
phase. -/
structure Tally (h : Handle) (φ : Phase) (journal : List Entry) : Prop where
  opened : journal.count (.opened h) = if φ = .unopened then 0 else 1
  closed : journal.count (.closed h) = if φ = .closed then 1 else 0
  accepted : journal.count (.started h true) =
    journal.count (.stopped h) + if φ = .running then 1 else 0
  stopped : journal.count (.stopped h) ≤ if φ = .stopped ∨ φ = .closed then 1 else 0

/-! ## Following a module -/

section follow

variable {h : Handle} {φ ψ : Phase} {j k : List Entry} {e : Entry}

theorem Phase.follow_append :
    follow h φ (j ++ k) = (follow h φ j).bind fun ψ => follow h ψ k := by
  simp [follow, List.foldlM_append]

theorem Phase.follow_cons : follow h φ (e :: k) = (advance h φ e).bind fun ψ => follow h ψ k := by
  simp [follow]

theorem phase_append : phase h (j ++ k) = (phase h j).bind fun ψ => Phase.follow h ψ k :=
  Phase.follow_append

/-- What is noted of other modules changes no phase. -/
theorem Phase.follow_of_others (others : ∀ e ∈ k, e.handle ≠ h) : follow h φ k = some φ := by
  induction k with
  | nil => rfl
  | cons e k ih =>
    rw [follow_cons, advance, if_neg (others e List.mem_cons_self)]
    exact ih fun e he => others e (List.mem_cons_of_mem _ he)

/-- Entries that each leave the phase as it is leave it so together. -/
theorem Phase.follow_of_fixed (fixed : ∀ e ∈ k, φ.next e = some φ) : follow h φ k = some φ := by
  induction k with
  | nil => rfl
  | cons e k ih =>
    have kept : advance h φ e = some φ := by
      unfold advance
      split
      · exact fixed e List.mem_cons_self
      · rfl
    rw [follow_cons, kept]
    exact ih fun e he => fixed e (List.mem_cons_of_mem _ he)

/-- An open module may be given answers. -/
theorem Phase.follow_answers (isOpen : φ.isOpen = true)
    (answers : ∀ e ∈ k, ∃ call b, e = .answered h call b) : follow h φ k = some φ := by
  refine follow_of_fixed fun e he => ?_
  obtain ⟨call, b, rfl⟩ := answers e he
  cases φ <;> simp_all [next, Phase.isOpen]

/-- A module that is not started may be asked who it is. -/
theorem Phase.follow_asked (asked : ∀ e ∈ k, ∃ what, e = .asked h what) :
    follow h .idle k = some .idle := by
  refine follow_of_fixed fun e he => ?_
  obtain ⟨what, rfl⟩ := asked e he
  rfl

/-- The phases before and after one entry of a journal that has a phase. -/
theorem phase_split (hφ : phase h (j ++ e :: k) = some φ) (about : e.handle = h) :
    ∃ ψ χ, phase h j = some ψ ∧ ψ.next e = some χ := by
  rw [phase_append, Option.bind_eq_some_iff] at hφ
  obtain ⟨ψ, hψ, rest⟩ := hφ
  rw [Phase.follow_cons, Phase.advance, if_pos about, Option.bind_eq_some_iff] at rest
  obtain ⟨χ, hχ, -⟩ := rest
  exact ⟨ψ, χ, hψ, hχ⟩

/-- The last entry of a journal that has a phase. -/
theorem phase_concat (hφ : phase h (j ++ [e]) = some φ) :
    ∃ ψ, phase h j = some ψ ∧ Phase.advance h ψ e = some φ := by
  rw [phase_append, Option.bind_eq_some_iff] at hφ
  obtain ⟨ψ, hψ, last⟩ := hφ
  rw [Phase.follow_cons, Option.bind_eq_some_iff] at last
  obtain ⟨χ, hχ, same⟩ := last
  exact ⟨ψ, hψ, (Option.some.inj same) ▸ hχ⟩

end follow

/-! ## What a phase tells -/

/-- The moves of the machine, one by one. -/
inductive Phase.Moves (h : Handle) : Phase → Entry → Phase → Prop
  | opened : Moves h .unopened (.opened h) .idle
  | asked (what : Identity) : Moves h .idle (.asked h what) .idle
  | starting (bound : Bool) : Moves h .idle (.starting h bound) .starting
  | refused : Moves h .starting (.started h false) .idle
  | accepted : Moves h .starting (.started h true) .running
  | event (type payload : String) : Moves h .running (.event h type payload) .running
  | stopped : Moves h .running (.stopped h) .stopped
  | closed : Moves h .idle (.closed h) .closed
  | closedStopped : Moves h .stopped (.closed h) .closed
  | answered {φ : Phase} (isOpen : φ.isOpen = true) (call : Call) (b : Bool) :
      Moves h φ (.answered h call b) φ

section tells

variable {h : Handle} {φ ψ : Phase} {j before after : List Entry} {e : Entry}

theorem Phase.moves_of_next (about : e.handle = h) (next : φ.next e = some ψ) :
    Phase.Moves h φ e ψ := by
  subst about
  cases e with
  | answered k call b =>
    have isOpen : φ.isOpen = true := by
      cases φ <;> simp_all [Phase.next, Phase.isOpen]
    have same : φ = ψ := by
      cases φ <;> simp_all [Phase.next, Phase.isOpen]
    exact same ▸ .answered isOpen call b
  | started k accepted =>
    cases φ <;> simp only [Phase.next, reduceCtorEq] at next
    cases accepted with
    | true => exact (Option.some.inj next) ▸ .accepted
    | false => exact (Option.some.inj next) ▸ .refused
  | _ =>
    cases φ <;> simp only [Phase.next, reduceCtorEq, Option.some.injEq] at next
    all_goals subst next; constructor

/-- An entry about another module changes no count. -/
theorem Tally.concat_other (t : Tally h φ j) (other : e.handle ≠ h) : Tally h φ (j ++ [e]) := by
  have kept (e' : Entry) (about : e'.handle = h) : (j ++ [e]).count e' = j.count e' := by
    have absent : [e].count e' = 0 := by
      refine List.count_eq_zero_of_not_mem fun he => ?_
      exact other (List.mem_singleton.mp he ▸ about)
    rw [List.count_append, absent, Nat.add_zero]
  obtain ⟨opened, closed, accepted, stopped⟩ := t
  constructor
  · rw [kept (.opened h) rfl, opened]
  · rw [kept (.closed h) rfl, closed]
  · rw [kept (.started h true) rfl, kept (.stopped h) rfl, accepted]
  · rw [kept (.stopped h) rfl]
    exact stopped

/-- An entry about the module changes the counts as it changes the phase. -/
theorem Tally.concat_moves (t : Tally h φ j) (moves : Phase.Moves h φ e ψ) :
    Tally h ψ (j ++ [e]) := by
  obtain ⟨opened, closed, accepted, stopped⟩ := t
  cases moves with
  | answered _ call b => constructor <;> simpa
  | _ => constructor <;> simp_all

/-- The phase determines how often a module was opened, accepted to start, was stopped
and closed. -/
theorem Tally.ofPhase (hφ : phase h j = some φ) : Tally h φ j := by
  -- The counts change at the end of the journal, so the induction is from there.
  induction j using List.reverseRecOn generalizing φ with
  | nil =>
    cases Option.some.inj hφ
    constructor <;> simp
  | append_singleton j e ih =>
    obtain ⟨ψ, hψ, last⟩ := phase_concat hφ
    unfold Phase.advance at last
    split at last
    · next about => exact (ih hψ).concat_moves (Phase.moves_of_next about last)
    · next other =>
      cases Option.some.inj last
      exact (ih hψ).concat_other other

/-- Where a move starts. -/
theorem Phase.moves_at (hφ : phase h (before ++ e :: after) = some φ) (about : e.handle = h) :
    ∃ ψ χ, Tally h ψ before ∧ Phase.Moves h ψ e χ := by
  obtain ⟨ψ, χ, hψ, next⟩ := phase_split hφ about
  exact ⟨ψ, χ, .ofPhase hψ, Phase.moves_of_next about next⟩

end tells

/-! ## A whole life -/

section life

variable {h : Handle} {journal : List Entry}

/-- What is neither the opening nor the closing of a module meets an open module. -/
theorem Phase.Moves.isOpen {φ ψ : Phase} {e : Entry} (moves : Phase.Moves h φ e ψ)
    (opened : e ≠ .opened h) : φ.isOpen = true := by
  cases moves <;> first | rfl | assumption | exact absurd rfl opened

/-- A module that has come to the last phase has lived as it should. -/
theorem Lifecycle.ofPhase (done : phase h journal = some .closed) : Lifecycle h journal := by
  have whole := Tally.ofPhase done
  constructor
  case opened_once => simpa using whole.opened
  case closed_once => simpa using whole.closed
  case while_open =>
    rintro before e after rfl about opened closed
    obtain ⟨ψ, χ, tally, moves⟩ := Phase.moves_at done about
    have isOpen := moves.isOpen opened
    -- In an open phase the opening is counted and the closing is not, so it is to come.
    have was : before.count (.opened h) = 1 := by
      rw [tally.opened, if_neg (by rintro rfl; cases isOpen)]
    have notYet : before.count (.closed h) = 0 := by
      rw [tally.closed, if_neg (by rintro rfl; cases isOpen)]
    have later : after.count (.closed h) = 1 := by
      have total := whole.closed
      rw [List.count_append, notYet, List.count_cons_of_ne closed] at total
      simpa using total
    exact ⟨List.count_pos_iff.mp (by omega), List.count_pos_iff.mp (by omega)⟩
  case not_restarted =>
    rintro before after rfl bound again
    obtain ⟨middle, last, rfl⟩ := List.append_of_mem again
    rw [← List.cons_append, ← List.append_assoc] at done
    obtain ⟨ψ, χ, tally, moves⟩ := Phase.moves_at done rfl
    cases moves
    have accepted := tally.accepted
    have stopped := tally.stopped
    simp at accepted stopped
    omega
  case events_running =>
    rintro before type payload after rfl
    obtain ⟨ψ, χ, tally, moves⟩ := Phase.moves_at done rfl
    cases moves
    have accepted := tally.accepted
    have stopped := tally.stopped
    simp only [reduceCtorEq, or_self, ↓reduceIte, Nat.le_zero] at accepted stopped
    exact ⟨List.count_pos_iff.mp (by omega), List.count_eq_zero.mp stopped⟩
  case stopped_once =>
    have accepted := whole.accepted
    have stopped := whole.stopped
    simp only [reduceCtorEq, or_true, ↓reduceIte, Nat.add_zero] at accepted stopped
    split
    · next some => have := List.count_pos_iff.mpr some; omega
    · next none => rw [← accepted, List.count_eq_zero_of_not_mem none]
  case stopped_last =>
    rintro before after rfl type payload again
    obtain ⟨middle, last, rfl⟩ := List.append_of_mem again
    rw [← List.cons_append, ← List.append_assoc] at done
    obtain ⟨ψ, χ, tally, moves⟩ := Phase.moves_at done rfl
    cases moves
    have stopped := tally.stopped
    simp at stopped

end life

end PluginHost
