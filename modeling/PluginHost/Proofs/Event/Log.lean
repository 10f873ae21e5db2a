import Mathlib.Algebra.GroupWithZero.Nat
import Mathlib.Order.Bounds.Basic
import PluginHost.Event.Bus

/-!
# The bus as a log

A bus keeps the newest events and gives the others up; a log keeps every event that
somebody was subscribed to. Whoever uses the two cannot tell them apart, so what a
receiver is owed is read off the log: the events from its position on.

Results:
1. `Bus.slotsFor?_isLeast`: how many events a bus keeps.
2. `Bus.Shows.receive`, with `subscribe`, `unsubscribe` and `publish` beside it: a bus and
   the log that it shows answer alike and stay alike.
3. `Bus.Owes.receive`: what a receiver is told next depends on what it is owed alone.
4. `Bus.Owes.publishAll`, and `Bus.Owes.of_subscribe`, `Bus.Owes.of_unsubscribe` and
   `Bus.Owes.of_receive`: nothing but its own reads and what is published changes what a
   receiver is owed.
-/

namespace PluginHost

variable {α : Type}

/-! ## Definitions -/

/-- The events that wait for a receiver: those from its position on. -/
def Log.waiting? (l : Log α) (id : Nat) : Option (List α) :=
  (l.receivers.find? fun r => r.id = id).map fun r => l.events.drop r.position

/-- No receiver stands behind the end of the log, and the next number is a new one. -/
structure Log.Valid (l : Log α) : Prop where
  behind : ∀ r ∈ l.receivers, r.position ≤ l.events.length
  fresh : ∀ r ∈ l.receivers, r.id < l.nextId

/-- `b.Shows l`: the bus `b` keeps the newest events of the log `l`, and they have the same
receivers. -/
structure Bus.Shows (b : Bus α) (l : Log α) : Prop where
  slots : b.slots = l.slots
  recent : b.recent = l.events.drop l.horizon
  published : b.published = l.events.length
  receivers : b.receivers = l.receivers
  nextId : b.nextId = l.nextId

/-- The bus shows a log. -/
def Bus.Sound (b : Bus α) : Prop :=
  ∃ l : Log α, b.Shows l ∧ l.Valid

/-- `b.Owes id rest`: of the events that were published since the receiver `id`
subscribed, it has not yet been told of `rest`. -/
def Bus.Owes (b : Bus α) (id : Nat) (rest : List α) : Prop :=
  ∃ l : Log α, b.Shows l ∧ l.Valid ∧ l.waiting? id = some rest

/-- Events are published one after the other. -/
def Bus.publishAll (b : Bus α) (events : List α) : Bus α :=
  events.foldl (fun b e => (b.publish e).2) b

namespace Received

/-- How many events a receiver is told of: the one it receives, or those it lost. -/
def weight : Received α → Nat
  | .event _ => 1
  | .lagged missed => missed
  | .empty => 0
  | .closed => 0

/-- What a receiver that is owed some events is told next, where `slots` events are kept. -/
def due (slots : Nat) : List α → Received α
  | [] => .empty
  | e :: rest => if slots < rest.length + 1 then .lagged (rest.length + 1 - slots) else .event e

end Received

/-! ## How many events are kept -/

/-- The least power of two, from a power of two on that is not too large already. -/
theorem Bus.powerFrom_isLeast {wanted steps k : Nat} (enough : wanted ≤ 2 ^ (k + steps))
    (least : ∀ j, wanted ≤ 2 ^ j → k ≤ j) :
    IsLeast {n | wanted ≤ n ∧ ∃ j, n = 2 ^ j} (powerFrom wanted steps (2 ^ k)) := by
  induction steps generalizing k with
  | zero =>
    refine ⟨⟨enough, k, rfl⟩, ?_⟩
    rintro _ ⟨reaches, j, rfl⟩
    exact Nat.pow_le_pow_right (by omega) (least j reaches)
  | succ steps ih =>
    unfold powerFrom
    split
    · next reaches =>
      refine ⟨⟨reaches, k, rfl⟩, ?_⟩
      rintro _ ⟨reaches, j, rfl⟩
      exact Nat.pow_le_pow_right (by omega) (least j reaches)
    · next short =>
      have later : ∀ j, wanted ≤ 2 ^ j → k + 1 ≤ j := by
        intro j reaches
        have from_k := least j reaches
        have other : j ≠ k := by
          rintro rfl
          exact short reaches
        omega
      have double : 2 * 2 ^ k = 2 ^ (k + 1) := by omega
      rw [double]
      exact ih (by rwa [Nat.add_right_comm]) later

/-- A bus keeps the least power of two that is at least its capacity, and one event if its
capacity is none. -/
theorem Bus.slotsFor?_isLeast {capacity n : Nat} (some : slotsFor? capacity = some n) :
    IsLeast {n | max capacity 1 ≤ n ∧ ∃ j, n = 2 ^ j} n := by
  unfold slotsFor? at some
  split at some
  · cases some
  · next limit =>
    rw [← Option.some.inj some]
    have enough : max capacity 1 ≤ 2 ^ (0 + 64) := by
      have limits : capacityLimit = 9223372036854775807 := rfl
      omega
    exact powerFrom_isLeast enough fun j _ => Nat.zero_le j

/-! ## A bus and its log -/

namespace Bus.Shows

variable {b : Bus α} {l : Log α}

theorem dropped (shown : b.Shows l) : b.dropped = l.horizon := by
  rw [Bus.dropped, shown.published, shown.recent, List.length_drop, Log.horizon]
  omega

/-- A bus that nothing was done with yet shows the empty log. -/
theorem new (slots : Nat) : Bus.Shows { slots } ({ slots } : Log α) :=
  ⟨rfl, List.drop_nil.symm, rfl, rfl, rfl⟩

theorem subscribe (shown : b.Shows l) : b.subscribe.2.Shows l.subscribe.2 := by
  refine ⟨shown.slots, shown.recent, shown.published, ?_, ?_⟩
  · simp only [Bus.subscribe, Log.subscribe, shown.receivers, shown.nextId, shown.published]
  · simp only [Bus.subscribe, Log.subscribe, shown.nextId]

theorem unsubscribe (shown : b.Shows l) (id : Nat) :
    (b.unsubscribe id).Shows (l.unsubscribe id) := by
  refine ⟨shown.slots, shown.recent, shown.published, ?_, shown.nextId⟩
  simp only [Bus.unsubscribe, Log.unsubscribe, shown.receivers]

/-- One event more: the oldest one is given up if there is no room for it. -/
theorem keep (shown : b.Shows l) (e : α) :
    b.keep (b.recent ++ [e]) = (l.events ++ [e]).drop (l.events.length + 1 - l.slots) := by
  have joined : b.recent ++ [e] = (l.events ++ [e]).drop l.horizon := by
    rw [shown.recent, List.drop_append_of_le_length (by unfold Log.horizon; omega)]
  rw [Bus.keep, joined, List.drop_drop, List.length_drop, List.length_append,
    List.length_singleton, shown.slots, Log.horizon]
  congr 1
  omega

theorem publish (shown : b.Shows l) (e : α) :
    (b.publish e).1 = (l.publish e).1 ∧ (b.publish e).2.Shows (l.publish e).2 := by
  unfold Bus.publish Log.publish
  rw [shown.receivers]
  split
  · exact ⟨rfl, shown⟩
  · refine ⟨rfl, shown.slots, ?_, ?_, rfl, shown.nextId⟩
    · simp only [shown.keep, Log.horizon, List.length_append, List.length_singleton]
    · simp only [shown.published, List.length_append, List.length_singleton]

theorem moveTo (shown : b.Shows l) (id position : Nat) :
    (b.moveTo id position).Shows (l.moveTo id position) := by
  refine ⟨shown.slots, shown.recent, shown.published, ?_, shown.nextId⟩
  simp only [Bus.moveTo, Log.moveTo, shown.receivers]

/-- A bus tells a receiver what its log does. -/
theorem receive (shown : b.Shows l) (id : Nat) :
    (b.receive id).1 = (l.receive id).1 ∧ (b.receive id).2.Shows (l.receive id).2 := by
  unfold Bus.receive Log.receive
  rw [shown.receivers, shown.dropped]
  cases l.receivers.find? fun r => r.id = id with
  | none => exact ⟨rfl, shown⟩
  | some r =>
    by_cases behind : r.position < l.horizon
    · simp only [behind, ↓reduceIte, true_and]
      exact shown.moveTo id _
    · have here : b.recent[r.position - l.horizon]? = l.events[r.position]? := by
        rw [shown.recent, List.getElem?_drop]
        congr 1
        omega
      simp only [behind, ↓reduceIte, here]
      cases l.events[r.position]? with
      | none => exact ⟨rfl, shown⟩
      | some e => exact ⟨rfl, shown.moveTo id _⟩

end Bus.Shows

/-! ## What waits in a log -/

namespace Log

variable {l : Log α} {id other : Nat} {rest : List α}

theorem waiting?_subscribe_self (valid : l.Valid) :
    l.subscribe.2.waiting? l.nextId = some [] := by
  have absent : (l.receivers.find? fun r => r.id = l.nextId) = none := by
    rw [List.find?_eq_none]
    intro r hr
    have below := valid.fresh r hr
    simp only [decide_eq_true_eq]
    omega
  simp [waiting?, subscribe, List.find?_append, absent]

theorem waiting?_subscribe (waits : l.waiting? id = some rest) :
    l.subscribe.2.waiting? id = some rest := by
  obtain ⟨r, found, rfl⟩ := Option.map_eq_some_iff.mp waits
  simp [waiting?, subscribe, List.find?_append, found]

theorem waiting?_unsubscribe (ne : other ≠ id) :
    (l.unsubscribe other).waiting? id = l.waiting? id := by
  have same : (fun r : Receiver =>
      decide (decide (r.id ≠ other) = true ∧ decide (r.id = id) = true)) =
        fun r => decide (r.id = id) := by
    funext r
    by_cases h : r.id = id
    · simp [h, ne.symm]
    · simp [h]
  rw [waiting?, unsubscribe, List.find?_filter, same, waiting?]

theorem waiting?_publish (waits : l.waiting? id = some rest) (valid : l.Valid) (e : α) :
    (l.publish e).2.waiting? id = some (rest ++ [e]) := by
  obtain ⟨r, found, rfl⟩ := Option.map_eq_some_iff.mp waits
  have some : l.receivers.isEmpty = false := by
    cases here : l.receivers with
    | nil => simp [here] at found
    | cons => rfl
  have position := valid.behind r (List.mem_of_find?_eq_some found)
  simp only [waiting?, publish, some, Bool.false_eq_true, ↓reduceIte, found, Option.map_some,
    List.drop_append_of_le_length position]

/-- A receiver that is moved has other events waiting for it, and no other has. -/
theorem waiting?_moveTo (position : Nat) :
    (l.moveTo other position).waiting? id =
      if other = id then (l.waiting? id).map fun _ => l.events.drop position
      else l.waiting? id := by
  have same : ((fun r : Receiver => decide (r.id = id)) ∘
      fun r => if r.id = other then { r with position } else r) = fun r => decide (r.id = id) := by
    funext r
    by_cases h : r.id = other <;> simp [h]
  simp only [waiting?, moveTo, List.find?_map, same, Option.map_map]
  cases found : l.receivers.find? fun r => decide (r.id = id) with
  | none => simp
  | some r =>
    have here : r.id = id := by simpa using List.find?_some found
    by_cases h : other = id
    · simp [here, h]
    · simp [here, h, Ne.symm h]

theorem receive_of_empty (waits : l.waiting? id = some []) :
    l.receive id = (.empty, l) := by
  obtain ⟨r, found, none⟩ := Option.map_eq_some_iff.mp waits
  have ended : l.events.length ≤ r.position := List.drop_eq_nil_iff.mp none
  have behind : ¬ r.position < l.horizon := by
    unfold horizon
    omega
  simp only [receive, found, behind, ↓reduceIte, List.getElem?_eq_none ended]

theorem receive_of_event {e : α} (waits : l.waiting? id = some (e :: rest))
    (kept : rest.length < l.slots) :
    ∃ position, l.receive id = (.event e, l.moveTo id position) ∧
      l.events.drop position = rest ∧ position ≤ l.events.length := by
  obtain ⟨r, found, here⟩ := Option.map_eq_some_iff.mp waits
  have amount : l.events.length - r.position = rest.length + 1 := by
    rw [← List.length_drop, here, List.length_cons]
  have behind : ¬ r.position < l.horizon := by
    unfold horizon
    omega
  have next : l.events[r.position]? = some e := by
    rw [← List.head?_drop, here, List.head?_cons]
  refine ⟨r.position + 1, ?_, ?_, by omega⟩
  · simp only [receive, found, behind, ↓reduceIte, next]
  · rw [← List.tail_drop, here, List.tail_cons]

theorem receive_of_lagged (waits : l.waiting? id = some rest)
    (lost : l.slots < rest.length) :
    l.receive id = (.lagged (rest.length - l.slots), l.moveTo id l.horizon) ∧
      l.events.drop l.horizon = rest.drop (rest.length - l.slots) := by
  obtain ⟨r, found, rfl⟩ := Option.map_eq_some_iff.mp waits
  rw [List.length_drop] at lost
  have behind : r.position < l.horizon := by
    unfold horizon
    omega
  have missed : l.horizon - r.position = l.events.length - r.position - l.slots := by
    unfold horizon
    omega
  constructor
  · simp only [receive, found, behind, ↓reduceIte, missed, List.length_drop]
  · rw [List.drop_drop, List.length_drop, ← missed]
    congr 1
    omega

namespace Valid

theorem subscribe (valid : l.Valid) : l.subscribe.2.Valid := by
  constructor
  · intro r hr
    rcases List.mem_append.mp hr with hr | hr
    · exact valid.behind r hr
    · rw [List.mem_singleton.mp hr]
      exact Nat.le_refl _
  · intro r hr
    rcases List.mem_append.mp hr with hr | hr
    · exact Nat.lt_succ_of_lt (valid.fresh r hr)
    · rw [List.mem_singleton.mp hr]
      exact Nat.lt_succ_self _

theorem unsubscribe (valid : l.Valid) (id : Nat) : (l.unsubscribe id).Valid :=
  ⟨fun r hr => valid.behind r (List.mem_filter.mp hr).1,
    fun r hr => valid.fresh r (List.mem_filter.mp hr).1⟩

theorem publish (valid : l.Valid) (e : α) : (l.publish e).2.Valid := by
  unfold Log.publish
  split
  · exact valid
  · refine ⟨fun r hr => ?_, valid.fresh⟩
    rw [List.length_append]
    exact Nat.le_add_right_of_le (valid.behind r hr)

theorem moveTo (valid : l.Valid) {position : Nat} (within : position ≤ l.events.length) :
    (l.moveTo id position).Valid := by
  constructor
  · intro r hr
    obtain ⟨q, hq, rfl⟩ := List.mem_map.mp hr
    split
    · exact within
    · exact valid.behind q hq
  · intro r hr
    obtain ⟨q, hq, rfl⟩ := List.mem_map.mp hr
    split <;> exact valid.fresh q hq

end Valid

/-- Reading leaves a log as it is, or moves the receiver that reads to some position. -/
theorem receive_cases (l : Log α) (id : Nat) :
    (l.receive id).2 = l ∨
      ∃ position ≤ l.events.length, (l.receive id).2 = l.moveTo id position := by
  unfold receive
  cases l.receivers.find? fun r => r.id = id with
  | none => exact .inl rfl
  | some r =>
    dsimp only
    split
    · exact .inr ⟨l.horizon, by unfold horizon; omega, rfl⟩
    · cases here : l.events[r.position]? with
      | none => exact .inl rfl
      | some e =>
        obtain ⟨within, -⟩ := List.getElem?_eq_some_iff.mp here
        exact .inr ⟨r.position + 1, within, rfl⟩

theorem Valid.receive (valid : l.Valid) (id : Nat) : (l.receive id).2.Valid := by
  rcases l.receive_cases id with same | ⟨position, within, moved⟩
  · rwa [same]
  · rw [moved]
    exact valid.moveTo within

theorem waiting?_receive (ne : other ≠ id) :
    (l.receive other).2.waiting? id = l.waiting? id := by
  rcases l.receive_cases other with same | ⟨position, -, moved⟩
  · rw [same]
  · rw [moved, waiting?_moveTo, if_neg ne]

end Log

/-! ## What a bus owes -/

namespace Bus

variable {b : Bus α} {id other : Nat} {rest : List α}

namespace Sound

theorem new (slots : Nat) : Sound ({ slots } : Bus α) :=
  ⟨{ slots }, .new slots, by simp, by simp⟩

theorem subscribe (sound : b.Sound) : b.subscribe.2.Sound := by
  obtain ⟨l, shown, valid⟩ := sound
  exact ⟨_, shown.subscribe, valid.subscribe⟩

theorem unsubscribe (sound : b.Sound) (id : Nat) : (b.unsubscribe id).Sound := by
  obtain ⟨l, shown, valid⟩ := sound
  exact ⟨_, shown.unsubscribe id, valid.unsubscribe id⟩

theorem publish (sound : b.Sound) (e : α) : (b.publish e).2.Sound := by
  obtain ⟨l, shown, valid⟩ := sound
  exact ⟨_, (shown.publish e).2, valid.publish e⟩

theorem receive (sound : b.Sound) (id : Nat) : (b.receive id).2.Sound := by
  obtain ⟨l, shown, valid⟩ := sound
  exact ⟨_, (shown.receive id).2, valid.receive id⟩

/-- Nothing is owed to a receiver that has just subscribed. -/
theorem owes_new (sound : b.Sound) : b.subscribe.2.Owes b.subscribe.1 [] := by
  obtain ⟨l, shown, valid⟩ := sound
  refine ⟨_, shown.subscribe, valid.subscribe, ?_⟩
  rw [Bus.subscribe, shown.nextId]
  exact Log.waiting?_subscribe_self valid

end Sound

theorem slots_publish (b : Bus α) (e : α) : (b.publish e).2.slots = b.slots := by
  unfold publish
  split <;> rfl

theorem slots_publishAll (b : Bus α) (events : List α) :
    (b.publishAll events).slots = b.slots := by
  induction events generalizing b with
  | nil => rfl
  | cons e events ih => exact (ih _).trans (b.slots_publish e)

theorem nextId_publish (b : Bus α) (e : α) : (b.publish e).2.nextId = b.nextId := by
  unfold publish
  split <;> rfl

theorem receivers_publish (b : Bus α) (e : α) : (b.publish e).2.receivers = b.receivers := by
  unfold publish
  split <;> rfl

theorem slots_receive (b : Bus α) (id : Nat) : (b.receive id).2.slots = b.slots := by
  unfold receive
  repeat' split
  all_goals rfl

theorem nextId_receive (b : Bus α) (id : Nat) : (b.receive id).2.nextId = b.nextId := by
  unfold receive
  repeat' split
  all_goals rfl

theorem map_id_receive (b : Bus α) (id : Nat) :
    (b.receive id).2.receivers.map (·.id) = b.receivers.map (·.id) := by
  have moved (position : Nat) :
      (b.moveTo id position).receivers.map (·.id) = b.receivers.map (·.id) := by
    rw [moveTo, List.map_map]
    refine List.map_congr_left fun r _ => ?_
    simp only [Function.comp]
    split <;> rfl
  unfold receive
  repeat' split
  all_goals first | rfl | exact moved _

/-- A read that finds nothing changes nothing. -/
theorem receive_of_empty (none : (b.receive id).1 = .empty) : b.receive id = (.empty, b) := by
  unfold receive at none ⊢
  cases found : b.receivers.find? fun r => r.id = id with
  | none => simp [found] at none
  | some r =>
    simp only [found] at none ⊢
    split at none
    · cases none
    · next behind =>
      rw [if_neg behind]
      cases here : b.recent[r.position - b.dropped]? with
      | none => rfl
      | some e => simp [here] at none

/-- Nor does the read of one who is no receiver. -/
theorem receive_of_closed (none : (b.receive id).1 = .closed) : b.receive id = (.closed, b) := by
  unfold receive at none ⊢
  cases found : b.receivers.find? fun r => r.id = id with
  | none => rfl
  | some r =>
    simp only [found] at none
    repeat' split at none
    all_goals cases none

namespace Owes

theorem sound (owes : b.Owes id rest) : b.Sound := by
  obtain ⟨l, shown, valid, -⟩ := owes
  exact ⟨l, shown, valid⟩

theorem of_subscribe (owes : b.Owes id rest) : b.subscribe.2.Owes id rest := by
  obtain ⟨l, shown, valid, waits⟩ := owes
  exact ⟨_, shown.subscribe, valid.subscribe, Log.waiting?_subscribe waits⟩

theorem of_unsubscribe (owes : b.Owes id rest) (ne : other ≠ id) :
    (b.unsubscribe other).Owes id rest := by
  obtain ⟨l, shown, valid, waits⟩ := owes
  exact ⟨_, shown.unsubscribe other, valid.unsubscribe other,
    (Log.waiting?_unsubscribe ne).trans waits⟩

theorem of_receive (owes : b.Owes id rest) (ne : other ≠ id) :
    (b.receive other).2.Owes id rest := by
  obtain ⟨l, shown, valid, waits⟩ := owes
  exact ⟨_, (shown.receive other).2, valid.receive other, (Log.waiting?_receive ne).trans waits⟩

theorem publish (owes : b.Owes id rest) (e : α) : (b.publish e).2.Owes id (rest ++ [e]) := by
  obtain ⟨l, shown, valid, waits⟩ := owes
  exact ⟨_, (shown.publish e).2, valid.publish e, Log.waiting?_publish waits valid e⟩

theorem publishAll (owes : b.Owes id rest) (events : List α) :
    (b.publishAll events).Owes id (rest ++ events) := by
  induction events generalizing b rest with
  | nil =>
    rw [List.append_nil]
    exact owes
  | cons e events ih =>
    have first := ih (owes.publish e)
    rw [List.append_assoc, List.singleton_append] at first
    exact first

/-- A receiver that is owed nothing is told so. -/
theorem empty (owes : b.Owes id []) : b.receive id = (.empty, b) := by
  obtain ⟨l, shown, valid, waits⟩ := owes
  have answer := (shown.receive id).1
  rw [Log.receive_of_empty waits] at answer
  exact receive_of_empty answer

/-- What a receiver is told, and what it is owed from then on. -/
theorem receive (owes : b.Owes id rest) :
    (b.receive id).1 = Received.due b.slots rest ∧
      (b.receive id).2.Owes id (rest.drop (Received.due b.slots rest).weight) := by
  cases rest with
  | nil =>
    rw [owes.empty]
    exact ⟨rfl, owes⟩
  | cons e rest =>
    obtain ⟨l, shown, valid, waits⟩ := owes
    obtain ⟨answer, after⟩ := shown.receive id
    by_cases lost : b.slots < rest.length + 1
    · obtain ⟨eq, left⟩ := Log.receive_of_lagged waits (by rwa [← shown.slots])
      rw [eq, ← shown.slots, List.length_cons] at answer
      rw [eq] at after
      rw [Received.due, if_pos lost]
      refine ⟨answer, _, after, valid.moveTo (by unfold Log.horizon; omega), ?_⟩
      simp [Log.waiting?_moveTo, waits, left, Received.weight, shown.slots]
    · obtain ⟨position, eq, left, within⟩ :=
        Log.receive_of_event waits (by rw [← shown.slots]; omega)
      rw [eq] at answer after
      rw [Received.due, if_neg lost]
      refine ⟨answer, _, after, valid.moveTo within, ?_⟩
      simp [Log.waiting?_moveTo, waits, left, Received.weight]

end Owes

end Bus

end PluginHost
