import Mathlib.Data.List.Nodup
import PluginHost.Proofs.Event.Log

/-!
# The books of a bus

A ledger goes along with a bus: it keeps every event that was ever published, and for each
receiver that is still subscribed where it came in and what it has been told since.

Results:
1. `Ledger.Kept.enter`: every operation keeps the books right.
2. `Ledger.account?_others`: the account of a receiver is the same without the reads and the
   ends of the others.
3. `accounts_balance`: the two over everything that can be done with a new bus.
4. `Bus.Tells.receive`, with `publishAll` and others beside it: one receiver among users of
   the bus who are not accounted for.
-/

namespace PluginHost

variable {α : Type}

/-! ## Definitions -/

/-- What is done with a bus. -/
inductive Bus.Operation (α : Type)
  | subscribe
  | publish (e : α)
  | receive (id : Nat)
  | unsubscribe (id : Nat)
  deriving DecidableEq, Repr

/-- A read or the end of another receiver than `id`. -/
def Bus.Operation.isOthers (id : Nat) : Bus.Operation α → Bool
  | .subscribe => false
  | .publish _ => false
  | .receive other => other ≠ id
  | .unsubscribe other => other ≠ id

namespace Received

/-- The event, if one is received. -/
def event? : Received α → Option α
  | .event e => some e
  | _ => none

/-- How many events were lost. -/
def missed : Received α → Nat
  | .lagged missed => missed
  | _ => 0

/-- `Cover told events`: of the events each was either received in its place or counted among
the lost ones there. -/
inductive Cover : List (Received α) → List α → Prop
  | nil : Cover [] []
  | event {told : List (Received α)} {events : List α} (e : α) (rest : Cover told events) :
      Cover (.event e :: told) (e :: events)
  | lagged {told : List (Received α)} {events : List α} (lost : List α)
      (rest : Cover told events) : Cover (.lagged lost.length :: told) (lost ++ events)
  | empty {told : List (Received α)} {events : List α} (rest : Cover told events) :
      Cover (.empty :: told) events

end Received

/-- The account of a receiver: how many events had been published when it subscribed, and
what it has been told since. -/
structure Account (α : Type) where
  id : Nat
  since : Nat
  told : List (Received α) := []
  deriving DecidableEq, Repr

namespace Account

/-- How many events the receiver has been told of. -/
def counted (a : Account α) : Nat :=
  (a.told.map Received.weight).sum

/-- Where the receiver stands among all events. -/
def position (a : Account α) : Nat :=
  a.since + a.counted

end Account

/-- A bus with all events that were ever published on it, and the accounts of the receivers
that are subscribed. -/
structure Ledger (α : Type) where
  bus : Bus α
  log : List α := []
  accounts : List (Account α) := []

namespace Ledger

def account? (k : Ledger α) (id : Nat) : Option (Account α) :=
  k.accounts.find? fun a => a.id = id

/-- Adds an answer to the account of a receiver. -/
def record (k : Ledger α) (id : Nat) (r : Received α) : List (Account α) :=
  k.accounts.map fun a => if a.id = id then { a with told := a.told ++ [r] } else a

/-- The ledger after an operation. -/
def enter (k : Ledger α) : Bus.Operation α → Ledger α
  | .subscribe =>
    { k with
      bus := k.bus.subscribe.2
      accounts := k.accounts ++ [{ id := k.bus.subscribe.1, since := k.log.length }] }
  | .publish e => { k with bus := (k.bus.publish e).2, log := k.log ++ [e] }
  | .receive id =>
    { k with bus := (k.bus.receive id).2, accounts := k.record id (k.bus.receive id).1 }
  | .unsubscribe id =>
    { k with bus := k.bus.unsubscribe id, accounts := k.accounts.filter fun a => a.id ≠ id }

def run (k : Ledger α) (operations : List (Bus.Operation α)) : Ledger α :=
  operations.foldl enter k

end Ledger

/-- The bus is a new one with which anything may have been done since. -/
def Bus.Used (b : Bus α) : Prop :=
  ∃ capacity new operations, Bus.new? capacity = some new ∧
    b = (({ bus := new } : Ledger α).run operations).bus

/-- `b.Tells id told events`: since the receiver `id` subscribed, `events` were published. It
has been told `told` of the first of them, and is still owed the others. -/
def Bus.Tells (b : Bus α) (id : Nat) (told : List (Received α)) (events : List α) : Prop :=
  ∃ heard rest, events = heard ++ rest ∧ Received.Cover told heard ∧ b.Owes id rest

/-- `a.Balances slots log b`: on the bus `b`, which keeps `slots` events and on which all of
`log` was published, the account `a` is right.

* `within`: the receiver does not stand behind the end.
* `empty`: at the end there is nothing for it.
* `event`: it receives the event at its place, if no more than are kept remain from there.
* `lagged`: otherwise it is told how many events lie before those that are kept, and moves
  to the first that is.
* `covered`: each event before its place it has received, in order, or lost.
* `inOrder`: what it has received are events published since it subscribed, in order, and
  none twice.
* `summed`: the losses it was told of are the events that it did not receive. -/
structure Account.Balances (a : Account α) (slots : Nat) (log : List α) (b : Bus α) : Prop where
  within : a.position ≤ log.length
  empty : a.position = log.length → (b.receive a.id).1 = .empty
  event : ∀ e, log[a.position]? = some e → log.length - a.position ≤ slots →
    (b.receive a.id).1 = .event e
  lagged : slots < log.length - a.position →
    ∃ n, (b.receive a.id).1 = .lagged n ∧ a.position + n = log.length - slots
  covered : Received.Cover a.told ((log.drop a.since).take a.counted)
  inOrder : (a.told.filterMap Received.event?).Sublist (log.drop a.since)
  summed : (a.told.filterMap Received.event?).length + (a.told.map Received.missed).sum = a.counted

/-- The books of a bus are right.

* `sound`: the bus shows a log.
* `receivers` and `distinct`: there is one account for each receiver, in order.
* `within`, `owed` and `covered`: a receiver is owed the events from its place on, and the
  others it was told of. -/
structure Ledger.Kept (k : Ledger α) : Prop where
  sound : k.bus.Sound
  receivers : k.bus.receivers.map (·.id) = k.accounts.map (·.id)
  distinct : (k.accounts.map (·.id)).Nodup
  within : ∀ a ∈ k.accounts, a.position ≤ k.log.length
  owed : ∀ a ∈ k.accounts, k.bus.Owes a.id (k.log.drop a.position)
  covered : ∀ a ∈ k.accounts, Received.Cover a.told ((k.log.drop a.since).take a.counted)

/-! ## What was told -/

namespace Received

variable {told told' : List (Received α)} {events events' : List α}

theorem Cover.append (a : Cover told events) (b : Cover told' events') :
    Cover (told ++ told') (events ++ events') := by
  induction a with
  | nil => exact b
  | event e _ ih => exact .event e ih
  | lagged lost _ ih =>
    rw [List.append_assoc]
    exact .lagged lost ih
  | empty _ ih => exact .empty ih

theorem Cover.sublist (c : Cover told events) : (told.filterMap event?).Sublist events := by
  induction c with
  | nil => exact .slnil
  | event e _ ih => exact ih.cons_cons e
  | lagged lost _ ih => exact ih.trans (List.sublist_append_right lost _)
  | empty _ ih => exact ih

theorem Cover.length (c : Cover told events) : events.length = (told.map weight).sum := by
  induction c with
  | nil => rfl
  | event e _ ih => simp [weight, ih, Nat.add_comm]
  | lagged lost _ ih => simp [weight, ih]
  | empty _ ih => simp [weight, ih]

/-- An event is told of by being received or by being counted among the lost. -/
theorem Cover.summed (c : Cover told events) :
    (told.filterMap event?).length + (told.map missed).sum = (told.map weight).sum := by
  induction c with
  | nil => rfl
  | event e _ ih =>
    simp only [List.filterMap_cons, event?, List.map_cons, List.sum_cons, missed, weight,
      List.length_cons]
    omega
  | lagged lost _ ih =>
    simp only [List.filterMap_cons, event?, List.map_cons, List.sum_cons, missed, weight]
    omega
  | empty _ ih =>
    simp only [List.filterMap_cons, event?, List.map_cons, List.sum_cons, missed, weight]
    omega

/-- Who never lost an event has received them all. -/
theorem Cover.eq_of_unlagged (c : Cover told events) (never : ∀ n, .lagged n ∉ told) :
    told.filterMap event? = events := by
  induction c with
  | nil => rfl
  | event e _ ih =>
    rw [List.filterMap_cons_some (by rfl), ih fun n hn => never n (List.mem_cons_of_mem _ hn)]
  | lagged lost _ ih => exact absurd List.mem_cons_self (never lost.length)
  | empty _ ih =>
    rw [List.filterMap_cons_none (by rfl), ih fun n hn => never n (List.mem_cons_of_mem _ hn)]

/-- What a receiver is told next covers as many events as it is told of. -/
theorem cover_due (slots : Nat) (rest : List α) :
    Cover [due slots rest] (rest.take (due slots rest).weight) := by
  cases rest with
  | nil => exact .empty .nil
  | cons e rest =>
    rw [due]
    split
    · next lost =>
      have first : ((e :: rest).take (rest.length + 1 - slots)).length =
          rest.length + 1 - slots := by
        rw [List.length_take, List.length_cons]
        omega
      have one := Cover.lagged ((e :: rest).take (rest.length + 1 - slots)) .nil
      rwa [first, List.append_nil] at one
    · exact .event e .nil

theorem weight_due_le (slots : Nat) (rest : List α) : (due slots rest).weight ≤ rest.length := by
  have length := (cover_due slots rest).length
  rw [List.length_take, List.map_singleton, List.sum_singleton] at length
  omega

/-- A receiver that is owed something is told of something. -/
theorem weight_due_pos (slots : Nat) {rest : List α} (some : rest ≠ []) :
    0 < (due slots rest).weight := by
  cases rest with
  | nil => exact absurd rfl some
  | cons e rest =>
    rw [due]
    split
    · next lost => exact Nat.sub_pos_of_lt lost
    · exact Nat.one_pos

end Received

/-- The events up to a place do not change when one is added. -/
theorem List.take_drop_concat {log : List α} {since n : Nat} (within : since + n ≤ log.length)
    (e : α) : ((log ++ [e]).drop since).take n = (log.drop since).take n := by
  rw [List.drop_append_of_le_length (by omega),
    List.take_append_of_le_length (by rw [List.length_drop]; omega)]

/-! ## Keeping the books -/

namespace Ledger

variable {k k' : Ledger α} {id other : Nat} {a : Account α}

/-- The account after one more answer. -/
theorem mem_record {r : Received α} (ha : a ∈ k.record id r) :
    ∃ a' ∈ k.accounts, (a'.id ≠ id ∧ a = a') ∨
      (a'.id = id ∧ a = { a' with told := a'.told ++ [r] }) := by
  obtain ⟨a', ha', rfl⟩ := List.mem_map.mp ha
  refine ⟨a', ha', ?_⟩
  by_cases same : a'.id = id
  · exact .inr ⟨same, if_pos same⟩
  · exact .inl ⟨same, if_neg same⟩

theorem map_id_record (k : Ledger α) (id : Nat) (r : Received α) :
    (k.record id r).map (·.id) = k.accounts.map (·.id) := by
  rw [record, List.map_map]
  refine List.map_congr_left fun a _ => ?_
  simp only [Function.comp]
  split <;> rfl

/-- A read adds its answer to the account of the receiver that reads. -/
theorem account?_receive (k : Ledger α) (id other : Nat) :
    (k.enter (.receive id)).account? other =
      if id = other then
        (k.account? other).map fun a => { a with told := a.told ++ [(k.bus.receive id).1] }
      else k.account? other := by
  simp only [enter, account?, record, List.find?_map]
  generalize (k.bus.receive id).1 = r
  have same : ((fun a : Account α => decide (a.id = other)) ∘
      fun a => if a.id = id then { a with told := a.told ++ [r] } else a) =
      fun a => decide (a.id = other) := by
    funext a
    by_cases h : a.id = id <;> simp [h]
  rw [same]
  cases found : k.accounts.find? fun a => decide (a.id = other) with
  | none => simp
  | some a =>
    have here : a.id = other := by simpa using List.find?_some found
    by_cases h : id = other
    · simp [here, h]
    · simp [here, h, Ne.symm h]

/-- An answer adds what it tells of to the place. -/
theorem counted_concat (a : Account α) (r : Received α) :
    Account.counted { a with told := a.told ++ [r] } = a.counted + r.weight := by
  simp [Account.counted]

namespace Kept

theorem new (slots : Nat) : Kept ({ bus := { slots } } : Ledger α) := by
  constructor
  case sound => exact .new slots
  all_goals simp

theorem subscribe (kept : k.Kept) : (k.enter .subscribe).Kept := by
  obtain ⟨sound, receivers, distinct, within, owed, covered⟩ := kept
  have fresh : k.bus.nextId ∉ k.accounts.map (·.id) := by
    obtain ⟨l, shown, valid⟩ := sound
    rw [← receivers, shown.receivers, shown.nextId]
    intro there
    obtain ⟨r, hr, same⟩ := List.mem_map.mp there
    exact Nat.lt_irrefl _ (same ▸ valid.fresh r hr)
  have joined {P : Account α → Prop} (others : ∀ a ∈ k.accounts, P a)
      (one : P { id := k.bus.nextId, since := k.log.length }) :
      ∀ a ∈ (k.enter .subscribe).accounts, P a := by
    intro a ha
    rcases List.mem_append.mp ha with ha | ha
    · exact others a ha
    · exact (List.mem_singleton.mp ha) ▸ one
  refine ⟨sound.subscribe, ?_, ?_, joined within (Nat.le_refl _), ?_, joined covered ?_⟩
  · simp only [enter, Bus.subscribe, List.map_append, receivers, List.map_cons, List.map_nil]
  · simp only [enter, Bus.subscribe, List.map_append, List.map_cons, List.map_nil]
    exact List.nodup_append.mpr ⟨distinct, List.nodup_singleton _,
      fun _ ha _ hb => by rw [List.mem_singleton.mp hb]; exact fun h => fresh (h ▸ ha)⟩
  · refine joined (fun a ha => (owed a ha).of_subscribe) ?_
    have none : k.log.drop (k.log.length + 0) = [] := List.drop_length
    show k.bus.subscribe.2.Owes k.bus.subscribe.1 (k.log.drop (k.log.length + 0))
    rw [none]
    exact sound.owes_new
  · exact .nil

theorem publish (kept : k.Kept) (e : α) : (k.enter (.publish e)).Kept := by
  obtain ⟨sound, receivers, distinct, within, owed, covered⟩ := kept
  refine ⟨sound.publish e, ?_, distinct, fun a ha => ?_, fun a ha => ?_, fun a ha => ?_⟩
  · show (k.bus.publish e).2.receivers.map (·.id) = k.accounts.map (·.id)
    rw [← receivers, k.bus.receivers_publish e]
  · simp only [enter, List.length_append, List.length_singleton]
    exact Nat.le_succ_of_le (within a ha)
  · simp only [enter, List.drop_append_of_le_length (within a ha)]
    exact (owed a ha).publish e
  · simp only [enter, List.take_drop_concat (within a ha)]
    exact covered a ha

theorem receive (kept : k.Kept) (id : Nat) : (k.enter (.receive id)).Kept := by
  obtain ⟨sound, receivers, distinct, within, owed, covered⟩ := kept
  have ids : (k.bus.receive id).2.receivers.map (·.id) = k.bus.receivers.map (·.id) :=
    k.bus.map_id_receive id
  refine ⟨sound.receive id, ?_, ?_, fun a ha => ?_, fun a ha => ?_, fun a ha => ?_⟩
  · simp only [enter, map_id_record, ids, receivers]
  · simp only [enter, map_id_record]
    exact distinct
  all_goals
    obtain ⟨a, ha', ⟨ne, rfl⟩ | ⟨rfl, rfl⟩⟩ := mem_record ha
  · exact within a ha'
  · have due := (owed a ha').receive.1
    have told := Received.weight_due_le k.bus.slots (k.log.drop a.position)
    have place := within a ha'
    rw [List.length_drop, ← due] at told
    rw [Account.position, counted_concat, ← Nat.add_assoc]
    show a.position + (k.bus.receive a.id).1.weight ≤ k.log.length
    omega
  · exact (owed a ha').of_receive (Ne.symm ne)
  · obtain ⟨due, after⟩ := (owed a ha').receive
    rw [← due, List.drop_drop] at after
    rw [Account.position, counted_concat, ← Nat.add_assoc]
    exact after
  · exact covered a ha'
  · have due := (owed a ha').receive.1
    have one := Received.cover_due k.bus.slots (k.log.drop a.position)
    rw [← due] at one
    have both := (covered a ha').append one
    rw [Account.position, ← List.drop_drop, ← List.take_add] at both
    rw [counted_concat]
    exact both

theorem unsubscribe (kept : k.Kept) (id : Nat) : (k.enter (.unsubscribe id)).Kept := by
  obtain ⟨sound, receivers, distinct, within, owed, covered⟩ := kept
  have ids : (k.bus.unsubscribe id).receivers.map (·.id) =
      (k.bus.receivers.map (·.id)).filter fun i => i ≠ id := by
    rw [List.filter_map]
    rfl
  have accounts : (k.accounts.filter fun a => a.id ≠ id).map (·.id) =
      (k.accounts.map (·.id)).filter fun i => i ≠ id := by
    rw [List.filter_map]
    rfl
  refine ⟨sound.unsubscribe id, ?_, ?_, fun a ha => ?_, fun a ha => ?_, fun a ha => ?_⟩
  · simp only [enter, ids, accounts, receivers]
  · simp only [enter, accounts]
    exact distinct.filter _
  all_goals
    obtain ⟨here, other⟩ := List.mem_filter.mp ha
  · exact within a here
  · exact (owed a here).of_unsubscribe fun same => by simp [same] at other
  · exact covered a here

/-- Every operation keeps the books right. -/
theorem enter (kept : k.Kept) (o : Bus.Operation α) : (k.enter o).Kept := by
  cases o with
  | subscribe => exact kept.subscribe
  | publish e => exact kept.publish e
  | receive id => exact kept.receive id
  | unsubscribe id => exact kept.unsubscribe id

theorem run (kept : k.Kept) (operations : List (Bus.Operation α)) : (k.run operations).Kept := by
  induction operations generalizing k with
  | nil => exact kept
  | cons o rest ih => exact ih (kept.enter o)

end Kept

theorem sound_of_used {b : Bus α} (used : b.Used) : b.Sound := by
  obtain ⟨capacity, new, operations, made, rfl⟩ := used
  obtain ⟨slots, -, rfl⟩ := Option.map_eq_some_iff.mp made
  exact ((Kept.new slots).run operations).sound

theorem slots_enter (k : Ledger α) (o : Bus.Operation α) : (k.enter o).bus.slots = k.bus.slots := by
  cases o with
  | subscribe => rfl
  | publish e => exact k.bus.slots_publish e
  | receive id => exact k.bus.slots_receive id
  | unsubscribe id => rfl

theorem slots_run (k : Ledger α) (operations : List (Bus.Operation α)) :
    (k.run operations).bus.slots = k.bus.slots := by
  induction operations generalizing k with
  | nil => rfl
  | cons o rest ih => exact (ih (k.enter o)).trans (k.slots_enter o)

/-- An event reaches as many receivers as there are accounts. -/
theorem Kept.reaches (kept : k.Kept) (e : α) : (k.bus.publish e).1 = k.accounts.length := by
  have count := congrArg List.length kept.receivers
  rw [List.length_map, List.length_map] at count
  unfold Bus.publish
  split
  · next none =>
    rw [List.isEmpty_iff] at none
    rw [← count, none, List.length_nil]
  · exact count

/-- Where the books are right, each account is. -/
theorem Kept.balances (kept : k.Kept) (ha : a ∈ k.accounts) :
    a.Balances k.bus.slots k.log k.bus := by
  have within := kept.within a ha
  have covered := kept.covered a ha
  have answer := (kept.owed a ha).receive.1
  have left : (k.log.drop a.position).length = k.log.length - a.position := List.length_drop
  constructor
  case within => exact within
  case empty =>
    intro ended
    rw [answer, ended, List.drop_length, Received.due]
  case event =>
    intro e here kept
    obtain ⟨before, rfl⟩ := List.getElem?_eq_some_iff.mp here
    rw [List.drop_eq_getElem_cons before] at answer left
    rw [answer, Received.due, if_neg (by rw [List.length_cons] at left; omega)]
  case lagged =>
    intro lost
    cases rest : k.log.drop a.position with
    | nil =>
      rw [rest, List.length_nil] at left
      omega
    | cons e rest' =>
      rw [rest, List.length_cons] at left
      rw [rest, Received.due, if_pos (by omega)] at answer
      exact ⟨_, answer, by omega⟩
  case covered => exact covered
  case inOrder => exact covered.sublist.trans (List.take_sublist _ _)
  case summed => exact covered.summed

/-! ## One account among others -/

/-- `k.Agrees id k'`: two ledgers agree on all events and on the account of `id`. -/
structure Agrees (k : Ledger α) (id : Nat) (k' : Ledger α) : Prop where
  log : k'.log = k.log
  slots : k'.bus.slots = k.bus.slots
  nextId : k'.bus.nextId = k.bus.nextId
  account : k'.account? id = k.account? id

/-- What a receiver is told follows from its own account. -/
theorem Kept.answer (kept : k.Kept) (found : k.account? id = some a) :
    (k.bus.receive id).1 = Received.due k.bus.slots (k.log.drop a.position) := by
  have same : a.id = id := by simpa using List.find?_some found
  rw [← same]
  exact (kept.owed a (List.mem_of_find?_eq_some found)).receive.1

/-- A read or the end of another receiver leaves an account as it is. -/
theorem Agrees.others {o : Bus.Operation α} (isOthers : o.isOthers id = true) :
    (k.enter o).Agrees id k := by
  cases o with
  | subscribe => cases isOthers
  | publish e => cases isOthers
  | receive other =>
    have ne : other ≠ id := by simpa [Bus.Operation.isOthers] using isOthers
    refine ⟨rfl, (k.bus.slots_receive other).symm, (k.bus.nextId_receive other).symm, ?_⟩
    rw [account?_receive, if_neg ne]
  | unsubscribe other =>
    have ne : other ≠ id := by simpa [Bus.Operation.isOthers] using isOthers
    have same : (fun a : Account α =>
        decide (decide (a.id ≠ other) = true ∧ decide (a.id = id) = true)) =
          fun a => decide (a.id = id) := by
      funext a
      by_cases h : a.id = id
      · simp [h, ne.symm]
      · simp [h]
    refine ⟨rfl, rfl, rfl, ?_⟩
    rw [enter, account?, account?, List.find?_filter, same]

theorem Agrees.trans {k'' : Ledger α} (a : k.Agrees id k') (b : k'.Agrees id k'') :
    k.Agrees id k'' :=
  ⟨b.log.trans a.log, b.slots.trans a.slots, b.nextId.trans a.nextId, b.account.trans a.account⟩

/-- The same operation keeps two ledgers in agreement. -/
theorem Agrees.enter (agrees : k.Agrees id k') (kept : k.Kept) (kept' : k'.Kept)
    {o : Bus.Operation α} (own : o.isOthers id = false) : (k.enter o).Agrees id (k'.enter o) := by
  obtain ⟨log, slots, nextId, account⟩ := agrees
  cases o with
  | subscribe =>
    refine ⟨log, slots, congrArg (· + 1) nextId, ?_⟩
    unfold account? at account
    simp only [Ledger.enter, Bus.subscribe, account?, List.find?_append, account, nextId, log]
  | publish e =>
    refine ⟨?_, ?_, ?_, account⟩
    · simp only [Ledger.enter, log]
    · simp only [Ledger.enter, Bus.slots_publish, slots]
    · simp only [Ledger.enter, Bus.nextId_publish, nextId]
  | receive other =>
    have same : other = id := by simpa [Bus.Operation.isOthers] using own
    subst same
    refine ⟨log, ?_, ?_, ?_⟩
    · simp only [Ledger.enter, Bus.slots_receive, slots]
    · simp only [Ledger.enter, Bus.nextId_receive, nextId]
    · rw [account?_receive, account?_receive, account]
      cases found : k.account? other with
      | none => rfl
      | some a => rw [kept.answer found, kept'.answer (account.trans found), slots, log]
  | unsubscribe other =>
    have same : other = id := by simpa [Bus.Operation.isOthers] using own
    subst same
    refine ⟨log, slots, nextId, ?_⟩
    have gone (l : Ledger α) : (l.enter (.unsubscribe other)).account? other = none := by
      simp [Ledger.enter, account?, List.find?_filter]
    rw [gone, gone]

/-- The account of a receiver is the same without the reads and the ends of the others. -/
theorem account?_others (agrees : k.Agrees id k') (kept : k.Kept) (kept' : k'.Kept)
    (operations : List (Bus.Operation α)) :
    (k.run operations).account? id =
      (k'.run (operations.filter fun o => !o.isOthers id)).account? id := by
  induction operations generalizing k k' with
  | nil => exact agrees.account.symm
  | cons o rest ih =>
    cases others : o.isOthers id with
    | true =>
      rw [List.filter_cons_of_neg (by simp [others])]
      exact ih ((Agrees.others others).trans agrees) (kept.enter o) kept'
    | false =>
      rw [List.filter_cons_of_pos (by simp [others])]
      exact ih (agrees.enter kept kept' others) (kept.enter o) (kept'.enter o)

end Ledger

/-- Whatever is done with a new bus, an event reaches everybody who is subscribed, every
account is right, and no receiver's reads or end make a difference to the account of
another. -/
theorem accounts_balance {capacity : Nat} {b : Bus α} (made : Bus.new? capacity = some b)
    (operations : List (Bus.Operation α)) :
    let k := ({ bus := b } : Ledger α).run operations
    IsLeast {n | max capacity 1 ≤ n ∧ ∃ j, n = 2 ^ j} b.slots ∧
      (∀ e, (k.bus.publish e).1 = k.accounts.length) ∧
      (∀ a ∈ k.accounts, a.Balances b.slots k.log k.bus) ∧
      ∀ id, k.account? id =
        (({ bus := b } : Ledger α).run
          (operations.filter fun o => !o.isOthers id)).account? id := by
  intro k
  obtain ⟨slots, fits, rfl⟩ := Option.map_eq_some_iff.mp made
  have new := Ledger.Kept.new (α := α) slots
  have kept : k.Kept := new.run operations
  have same : k.bus.slots = slots := Ledger.slots_run _ operations
  refine ⟨Bus.slotsFor?_isLeast fits, kept.reaches, fun a ha => ?_, fun id => ?_⟩
  · have balances := kept.balances ha
    rwa [same] at balances
  · exact Ledger.account?_others ⟨rfl, rfl, rfl, rfl⟩ new new operations

/-- Of six events a bus for three keeps four. A receiver that has read nothing loses two, and
then all that is kept is waiting for it, to the last place. -/
theorem full_bus_balances :
    let operations : List (Bus.Operation Nat) :=
      [.subscribe, .publish 1, .publish 2, .subscribe, .publish 3, .publish 4, .publish 5,
        .publish 6, .receive 0, .receive 1, .unsubscribe 1, .receive 0, .publish 7]
    let k := ({ bus := { slots := 4 } } : Ledger Nat).run operations
    Bus.new? 3 = some ({ slots := 4 } : Bus Nat) ∧
      k.accounts = [⟨0, 0, [.lagged 2, .event 3]⟩] ∧ (k.bus.receive 0).1 = .event 4 ∧
      ∀ a ∈ k.accounts, a.Balances 4 k.log k.bus := by
  intro operations k
  have made : Bus.new? 3 = some ({ slots := 4 } : Bus Nat) := rfl
  exact ⟨made, rfl, rfl, (accounts_balance made operations).2.2.1⟩

/-! ## One receiver -/

namespace Bus.Tells

variable {b : Bus α} {id other : Nat} {told : List (Received α)} {events : List α}

theorem new (sound : b.Sound) : b.subscribe.2.Tells b.subscribe.1 [] [] :=
  ⟨[], [], rfl, .nil, sound.owes_new⟩

theorem of_subscribe (tells : b.Tells id told events) : b.subscribe.2.Tells id told events := by
  obtain ⟨heard, rest, eq, covers, owes⟩ := tells
  exact ⟨heard, rest, eq, covers, owes.of_subscribe⟩

theorem of_unsubscribe (tells : b.Tells id told events) (ne : other ≠ id) :
    (b.unsubscribe other).Tells id told events := by
  obtain ⟨heard, rest, eq, covers, owes⟩ := tells
  exact ⟨heard, rest, eq, covers, owes.of_unsubscribe ne⟩

theorem of_receive (tells : b.Tells id told events) (ne : other ≠ id) :
    (b.receive other).2.Tells id told events := by
  obtain ⟨heard, rest, eq, covers, owes⟩ := tells
  exact ⟨heard, rest, eq, covers, owes.of_receive ne⟩

theorem publishAll (tells : b.Tells id told events) (more : List α) :
    (b.publishAll more).Tells id told (events ++ more) := by
  obtain ⟨heard, rest, rfl, covers, owes⟩ := tells
  exact ⟨heard, rest ++ more, List.append_assoc .., covers, owes.publishAll more⟩

/-- An answer tells of the next events. -/
theorem receive (tells : b.Tells id told events) :
    (b.receive id).2.Tells id (told ++ [(b.receive id).1]) events := by
  obtain ⟨heard, rest, rfl, covers, owes⟩ := tells
  obtain ⟨due, left⟩ := owes.receive
  have one := Received.cover_due b.slots rest
  refine ⟨_, _, ?_, covers.append (due ▸ one), left⟩
  rw [List.append_assoc, due, List.take_append_drop]

/-- A receiver for which nothing is left has been told of everything. -/
theorem cover (tells : b.Tells id told events) (caughtUp : (b.receive id).1 = .empty) :
    Received.Cover told events := by
  obtain ⟨heard, rest, rfl, covers, owes⟩ := tells
  have none : rest = [] := by
    by_contra some
    have pos := Received.weight_due_pos b.slots some
    rw [← owes.receive.1, caughtUp] at pos
    exact Nat.lt_irrefl 0 pos
  rw [none, List.append_nil]
  exact covers

end Bus.Tells

end PluginHost
