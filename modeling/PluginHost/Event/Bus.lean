/-!
# The event bus

An event is delivered to the receivers that are subscribed when it is published;
one that subscribes later never sees it. Publishing never waits: the bus keeps
the newest events, up to a fixed number, and a receiver that has not taken an
event by the time it is given up is told how many it lost.

* `Bus.publish`, `Bus.receive` and `Bus.subscribe` are the operations.
* `Bus.slotsFor?` is the number of events that are kept.
* `Log` is the same bus seen as all events ever published, with a position in
  them for each receiver.
-/

namespace PluginHost

/-- Where a receiver stands: how many of the published events lie before the one
it takes next. -/
structure Receiver where
  id : Nat
  position : Nat
  deriving DecidableEq, Repr, Inhabited

/-- What a receiver is told when it asks for an event. -/
inductive Received (α : Type)
  | event (e : α)
  | lagged (missed : Nat)
  | empty
  | closed
  deriving DecidableEq, Repr, Inhabited

/-- A bus that keeps `slots` events. Of the `published` ones `recent` holds the
newest, the oldest of them first. -/
structure Bus (α : Type) where
  slots : Nat
  recent : List α := []
  published : Nat := 0
  receivers : List Receiver := []
  nextId : Nat := 0
  deriving Repr, Inhabited

namespace Bus

variable {α : Type}

def capacityLimit : Nat := Nat.pow 2 63 - 1

/-- The least power of two, from `n` on, that is at least `wanted`. -/
def powerFrom (wanted : Nat) : (steps : Nat) → (n : Nat) → Nat
  | 0, n => n
  | steps + 1, n => if wanted ≤ n then n else powerFrom wanted steps (2 * n)

/-- How many events a bus of a capacity keeps: the least power of two that is at
least the capacity. A capacity beyond the limit has none. -/
def slotsFor? (capacity : Nat) : Option Nat :=
  if capacityLimit < capacity then none else some (powerFrom (max capacity 1) 64 1)

def defaultCapacity : Nat := 1024

def new? (capacity : Nat) : Option (Bus α) :=
  (slotsFor? capacity).map fun n => { slots := n }

/-- How many of the published events have been given up. -/
def dropped (b : Bus α) : Nat :=
  b.published - b.recent.length

/-- Adds a receiver of what is published from now on; its number. -/
def subscribe (b : Bus α) : Nat × Bus α :=
  (b.nextId,
    { b with receivers := b.receivers ++ [⟨b.nextId, b.published⟩], nextId := b.nextId + 1 })

def unsubscribe (b : Bus α) (id : Nat) : Bus α :=
  { b with receivers := b.receivers.filter fun r => r.id ≠ id }

def subscribers (b : Bus α) : Nat :=
  b.receivers.length

def keep (b : Bus α) (events : List α) : List α :=
  events.drop (events.length - b.slots)

/-- Publishes an event: the number of receivers it will reach. An event that
would reach none is not kept. -/
def publish (b : Bus α) (e : α) : Nat × Bus α :=
  if b.receivers.isEmpty then (0, b)
  else
    (b.receivers.length,
      { b with recent := b.keep (b.recent ++ [e]), published := b.published + 1 })

/-- Moves a receiver. -/
def moveTo (b : Bus α) (id position : Nat) : Bus α :=
  { b with
    receivers := b.receivers.map fun r => if r.id = id then { r with position } else r }

/-- The next event for a receiver. One that lost events is told so first, and
then stands at the oldest event that is kept. -/
def receive (b : Bus α) (id : Nat) : Received α × Bus α :=
  match b.receivers.find? fun r => r.id = id with
  | none => (.closed, b)
  | some r =>
    if r.position < b.dropped then (.lagged (b.dropped - r.position), b.moveTo id b.dropped)
    else match b.recent[r.position - b.dropped]? with
      | some e => (.event e, b.moveTo id (r.position + 1))
      | none => (.empty, b)

/-- Asks for events until there is none, at most `fuel` times. -/
def drainFrom (id : Nat) : (fuel : Nat) → Bus α → List (Received α) × Bus α
  | 0, b => ([], b)
  | fuel + 1, b =>
    match b.receive id with
    | (.empty, b) => ([], b)
    | (.closed, b) => ([], b)
    | (r, b) =>
      let (rest, b) := drainFrom id fuel b
      (r :: rest, b)

/-- All that a receiver is told until there is no event left for it. A receiver
is told of each kept event once, and of lost events once before. -/
def drain (b : Bus α) (id : Nat) : List (Received α) × Bus α :=
  b.drainFrom id (b.recent.length + 2)

end Bus

/-- A bus as all events that were published while somebody was subscribed, with
the receivers' positions. -/
structure Log (α : Type) where
  slots : Nat
  events : List α := []
  receivers : List Receiver := []
  nextId : Nat := 0
  deriving Repr, Inhabited

namespace Log

variable {α : Type}

def subscribe (l : Log α) : Nat × Log α :=
  (l.nextId,
    { l with receivers := l.receivers ++ [⟨l.nextId, l.events.length⟩], nextId := l.nextId + 1 })

def unsubscribe (l : Log α) (id : Nat) : Log α :=
  { l with receivers := l.receivers.filter fun r => r.id ≠ id }

/-- Adds an event, if there is a receiver for it. -/
def publish (l : Log α) (e : α) : Nat × Log α :=
  if l.receivers.isEmpty then (0, l)
  else (l.receivers.length, { l with events := l.events ++ [e] })

/-- The first position that a receiver can read from. -/
def horizon (l : Log α) : Nat :=
  l.events.length - l.slots

/-- Moves a receiver. -/
def moveTo (l : Log α) (id position : Nat) : Log α :=
  { l with
    receivers := l.receivers.map fun r => if r.id = id then { r with position } else r }

/-- The event at a receiver's position, unless it lies before the horizon. -/
def receive (l : Log α) (id : Nat) : Received α × Log α :=
  match l.receivers.find? fun r => r.id = id with
  | none => (.closed, l)
  | some r =>
    if r.position < l.horizon then (.lagged (l.horizon - r.position), l.moveTo id l.horizon)
    else match l.events[r.position]? with
      | some e => (.event e, l.moveTo id (r.position + 1))
      | none => (.empty, l)

end Log

end PluginHost
