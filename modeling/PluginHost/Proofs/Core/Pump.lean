import PluginHost.Core
import PluginHost.Proofs.Event.Ledger
import PluginHost.Proofs.Session.Dispatch

/-!
# The turns of a pump

A pump takes turns: in each it is told of an event and routes it, or of events that it lost.
While it routes an event more may be published, which it comes to later.

* `Core.turn?` is one turn, and `Core.receipts` keeps what happened in each.

Results:
1. `Core.turn?_turned`: all that a turn does.
2. `Core.pumpFrom_pumped`: all that a pump has done when it returns.
-/

namespace PluginHost

/-! ## Definitions -/

/-- What happened in one turn of a pump: what it was told, the plugins at that moment, and
what they published while the event was routed. -/
structure Receipt (σ : Type) where
  told : Received Event
  plugins : List (Managed σ)
  said : List Event := []

/-- The entries that are due for an event: those of an event that a plugin published. -/
def Event.deliveries {σ : Type} (ps : List (Managed σ)) : Event → List Entry
  | .plugin source type payload _ => Manager.deliveries (some source) type payload ps
  | _ => []

namespace Receipt

variable {σ : Type}

/-- An event that a plugin published was received. -/
def isPlugin (r : Receipt σ) : Bool :=
  r.told.event?.any fun e => e.kind = .plugin

def deliveries (r : Receipt σ) : List Entry :=
  r.told.event?.elim [] (Event.deliveries r.plugins)

end Receipt

namespace Core

variable {σ : Type}

/-- One turn of a pump, unless nothing is waiting. -/
def turn? (r : Running σ) (w : World σ) : Option (Receipt σ × Running σ × World σ) :=
  match w.bus.receive r.receiver with
  | (.event e, bus) =>
    let happens := fun w => (route r.manager e w).2
    some (⟨.event e, r.manager.plugins, (w.withBus bus).said fun w => (happens w).2⟩,
      { r with manager := (happens (w.withBus bus)).1 }, (happens (w.withBus bus)).2)
  | (.lagged n, bus) => some (⟨.lagged n, r.manager.plugins, []⟩, r, w.withBus bus)
  | (.empty, _) => none
  | (.closed, _) => none

/-- What happens in the turns of a pump. -/
def receipts : (fuel : Nat) → Running σ → World σ → List (Receipt σ)
  | 0, _, _ => []
  | fuel + 1, r, w =>
    match turn? r w with
    | none => []
    | some (receipt, r, w) => receipt :: receipts fuel r w

/-- What plugins may say to an event that is routed to them: they reply to the events of the
others in turn, and are told of no other events. -/
def Replied (m : Manager σ) : Event → List Event → Prop
  | .plugin source type payload _, said =>
    Managed.InTurn m.host type payload (m.plugins.filter (Manager.receives (some source))) said
  | _, said => said = []

/-- `Routed m e w events`: in the world `w` an event is routed to the plugins of `m`, and
they say `events`.

* `speaks`: this is all that is published.
* `replied`: these are the replies of the plugins that receive it.
* `host` and `same`: the plugins may have been granted more, and all else is the same.
* `handed`: each delivery that is due is made, once and in order. -/
structure Routed (m : Manager σ) (e : Event) (w : World σ) (events : List Event) : Prop where
  speaks : Speaks (route m e) w events
  replied : Replied m e events
  host : (route m e w).2.1.host = m.host
  same : (route m e w).2.1.plugins.map Managed.ungranted = m.plugins.map Managed.ungranted
  handed : ∃ δ, (route m e w).2.2.journal = w.journal ++ δ ∧
    δ.filter Entry.isEvent = e.deliveries m.plugins

/-- `Turned r w receipt r' w'`: a turn of a pump takes it from `r` and `w` to `r'` and `w'`.

* `receiver`, `host`, `slots` and `same`: the plugins may have been granted more, and all else
  is the same.
* `owes`: the receiver is told what is due, and what the plugins say is published.
* `replied`: the plugins reply to an event, or are told of none.
* `handed`: each delivery that is due is made, once and in order. -/
structure Turned (r : Running σ) (w : World σ) (receipt : Receipt σ) (r' : Running σ)
    (w' : World σ) : Prop where
  receiver : r'.receiver = r.receiver
  host : r'.manager.host = r.manager.host
  same : r'.manager.plugins.map Managed.ungranted = r.manager.plugins.map Managed.ungranted
  slots : w'.bus.slots = w.bus.slots
  owes : ∀ rest, w.bus.Owes r.receiver rest →
    receipt.told = Received.due w.bus.slots rest ∧
      w'.bus.Owes r.receiver (rest.drop receipt.told.weight ++ receipt.said)
  replied : receipt.told.event?.elim (receipt.said = []) fun e => Replied r.manager e receipt.said
  handed : ∃ δ, w'.journal = w.journal ++ δ ∧ δ.filter Entry.isEvent = receipt.deliveries

/-- `Pumped fuel r w n r' w'`: a pump has taken its turns from `r` and `w`, has counted `n`
and has come to `r'` and `w'`.

* `receiver`, `host` and `same`: as for a turn.
* `tells`: the receiver has been told what the receipts say.
* `caughtUp`: nothing is waiting.
* `counted`: one for each event that a plugin published.
* `handed`: the deliveries are those of the turns, one after the other. -/
structure Pumped (fuel : Nat) (r : Running σ) (w : World σ) (n : Nat) (r' : Running σ)
    (w' : World σ) : Prop where
  receiver : r'.receiver = r.receiver
  host : r'.manager.host = r.manager.host
  same : r'.manager.plugins.map Managed.ungranted = r.manager.plugins.map Managed.ungranted
  tells : ∀ told log, w.bus.Tells r.receiver told log →
    w'.bus.Tells r.receiver (told ++ (receipts fuel r w).map (·.told))
      (log ++ (receipts fuel r w).flatMap (·.said))
  caughtUp : turn? r' w' = none
  counted : n = (receipts fuel r w).countP (·.isPlugin)
  handed : ∃ δ, w'.journal = w.journal ++ δ ∧
    δ.filter Entry.isEvent = (receipts fuel r w).flatMap (·.deliveries)

end Core

/-! ## One turn -/

namespace Core

variable {σ : Type} {r r' : Running σ} {w w' : World σ} {receipt : Receipt σ}

/-- An event is routed as it should be. -/
theorem route_routed (m : Manager σ) (e : Event) (w : World σ) :
    ∃ events, Routed m e w events := by
  cases e with
  | plugin source type payload time =>
    obtain ⟨events, speaks, replies, same, handed⟩ :=
      Manager.dispatchTo_dispatched m.host (some source) type payload m.plugins w
    refine ⟨events, fun bus => ?_, replies, rfl, same, handed⟩
    simp only [route, Manager.dispatch, speaks bus]
  | pluginLoaded | pluginInitialized | pluginUnloaded | pluginError | shutdown =>
    exact ⟨[], fun _ => rfl, rfl, rfl, rfl, [], (List.append_nil _).symm, rfl⟩

/-- What a turn does. -/
theorem turn?_turned (turn : turn? r w = some (receipt, r', w')) :
    Turned r w receipt r' w' := by
  unfold turn? at turn
  rcases received : w.bus.receive r.receiver with ⟨e | n | _ | _, bus⟩
  · simp only [received, Option.some.injEq, Prod.mk.injEq] at turn
    obtain ⟨rfl, rfl, rfl⟩ := turn
    obtain ⟨events, speaks, replied, host, same, handed⟩ := route_routed r.manager e (w.withBus bus)
    have said : (w.withBus bus).said (fun w => (route r.manager e w).2.2) = events := speaks.said
    have slots := w.bus.slots_receive r.receiver
    rw [received] at slots
    refine ⟨rfl, host, same, ?_, fun rest owes => ?_, ?_, handed⟩
    · exact (congrArg Bus.slots speaks.bus).trans ((bus.slots_publishAll events).trans slots)
    · obtain ⟨due, left⟩ := owes.receive
      rw [received] at due left
      rw [← due] at left
      rw [said, speaks.bus]
      exact ⟨due, left.publishAll events⟩
    · rw [said]
      exact replied
  · simp only [received, Option.some.injEq, Prod.mk.injEq] at turn
    obtain ⟨rfl, rfl, rfl⟩ := turn
    have slots := w.bus.slots_receive r.receiver
    rw [received] at slots
    refine ⟨rfl, rfl, rfl, slots, fun rest owes => ?_, rfl, [], (List.append_nil _).symm, rfl⟩
    obtain ⟨due, left⟩ := owes.receive
    rw [received] at due left
    rw [← due] at left
    rw [List.append_nil]
    exact ⟨due, left⟩
  · simp [received] at turn
  · simp [received] at turn

/-- In a turn the receiver is told one thing more. -/
theorem Turned.tells (turned : Turned r w receipt r' w') {told : List (Received Event)}
    {log : List Event} (tells : w.bus.Tells r.receiver told log) :
    w'.bus.Tells r.receiver (told ++ [receipt.told]) (log ++ receipt.said) := by
  obtain ⟨heard, rest, rfl, covers, owes⟩ := tells
  obtain ⟨due, left⟩ := turned.owes rest owes
  have one := Received.cover_due w.bus.slots rest
  rw [← due] at one
  refine ⟨_, _, ?_, covers.append one, left⟩
  rw [List.append_assoc heard (rest.take _), ← List.append_assoc (rest.take _),
    List.take_append_drop, List.append_assoc]

/-- Nothing is waiting for a receiver that is there and for which there is no turn. -/
theorem empty_of_turn? {told : List (Received Event)} {log : List Event}
    (tells : w.bus.Tells r.receiver told log) (none : turn? r w = none) :
    (w.bus.receive r.receiver).1 = .empty := by
  obtain ⟨-, rest, -, -, owes⟩ := tells
  have answer := owes.receive.1
  unfold turn? at none
  rcases received : w.bus.receive r.receiver with ⟨e | n | _ | _, bus⟩
  · simp [received] at none
  · simp [received] at none
  · rfl
  · rw [received] at answer
    cases rest with
    | nil => cases answer
    | cons e rest =>
      rw [Received.due] at answer
      split at answer <;> cases answer

/-! ## Turns in a row -/

theorem pumpFrom_of_turn (turn : turn? r w = some (receipt, r', w')) (fuel : Nat) :
    pumpFrom (fuel + 1) r w = (pumpFrom fuel r' w').map fun (n, r, w) =>
      (n + (if receipt.isPlugin then 1 else 0), r, w) := by
  unfold turn? at turn
  rw [pumpFrom]
  rcases received : w.bus.receive r.receiver with ⟨e | n | _ | _, bus⟩
  · simp only [received, Option.some.injEq, Prod.mk.injEq] at turn
    obtain ⟨rfl, rfl, rfl⟩ := turn
    have routed : (route r.manager e (w.withBus bus)).1 = decide (e.kind = .plugin) := by
      cases e <;> rfl
    simp only [World.withBus] at routed ⊢
    simp only [routed, Receipt.isPlugin, Received.event?, Option.any_some]
    rfl
  · simp only [received, Option.some.injEq, Prod.mk.injEq] at turn
    obtain ⟨rfl, rfl, rfl⟩ := turn
    simp [Receipt.isPlugin, Received.event?, World.withBus]
  · simp [received] at turn
  · simp [received] at turn

theorem pumpFrom_of_none (none : turn? r w = none) (fuel : Nat) :
    pumpFrom (fuel + 1) r w = some (0, r, w) := by
  unfold turn? at none
  rw [pumpFrom]
  rcases received : w.bus.receive r.receiver with ⟨e | n | _ | _, bus⟩
  · simp [received] at none
  · simp [received] at none
  · have same := Bus.receive_of_empty (congrArg Prod.fst received)
    rw [received, Prod.mk.injEq] at same
    simp only [same.2]
  · have same := Bus.receive_of_closed (congrArg Prod.fst received)
    rw [received, Prod.mk.injEq] at same
    simp only [same.2]

theorem receipts_of_turn (turn : turn? r w = some (receipt, r', w')) (fuel : Nat) :
    receipts (fuel + 1) r w = receipt :: receipts fuel r' w' := by
  rw [receipts, turn]

theorem receipts_of_none (none : turn? r w = none) (fuel : Nat) :
    receipts (fuel + 1) r w = [] := by
  rw [receipts, none]

/-- What a pump has done when it returns. -/
theorem pumpFrom_pumped {fuel n : Nat} (returned : pumpFrom fuel r w = some (n, r', w')) :
    Pumped fuel r w n r' w' := by
  induction fuel generalizing r w n with
  | zero => cases returned
  | succ fuel ih =>
    cases turn : turn? r w with
    | none =>
      rw [pumpFrom_of_none turn] at returned
      obtain ⟨rfl, rfl, rfl⟩ : 0 = n ∧ r = r' ∧ w = w' := by simpa using returned
      refine ⟨rfl, rfl, rfl, fun told log tells => ?_, turn, ?_, [], (List.append_nil _).symm, ?_⟩
      all_goals rw [receipts_of_none turn]
      · simpa using tells
      · rfl
      · rfl
    | some next =>
      obtain ⟨receipt, r₁, w₁⟩ := next
      rw [pumpFrom_of_turn turn] at returned
      obtain ⟨⟨n₁, r₂, w₂⟩, rest, eq⟩ := Option.map_eq_some_iff.mp returned
      obtain ⟨rfl, rfl, rfl⟩ :
          n₁ + (if receipt.isPlugin then 1 else 0) = n ∧ r₂ = r' ∧ w₂ = w' := by simpa using eq
      have one := turn?_turned turn
      have more := ih rest
      obtain ⟨δ, journal, handed⟩ := one.handed
      obtain ⟨δ', journal', handed'⟩ := more.handed
      refine ⟨more.receiver.trans one.receiver, more.host.trans one.host,
        more.same.trans one.same, fun told log tells => ?_, more.caughtUp, ?_, δ ++ δ', ?_, ?_⟩
      · have first := one.tells tells
        rw [← one.receiver] at first
        have rest := more.tells _ _ first
        rw [receipts_of_turn turn]
        simpa [one.receiver] using rest
      · rw [receipts_of_turn turn, List.countP_cons, more.counted]
      · rw [journal', journal, List.append_assoc]
      · rw [List.filter_append, handed, handed', receipts_of_turn turn, List.flatMap_cons]

end Core

/-- A core with parrots and a bus for some events, which is not started yet. -/
def Parrot.core (slots : Nat) (answer : Terminated → Terminated) : Core Unit :=
  { config := { runtime := { configDir := some "conf", eventCapacity := slots } }
    loader := loader answer
    programs := fun _ => none }

end PluginHost
