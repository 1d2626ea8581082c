import CompilerDriver.Event

/-!
# The event bus

Events published to any number of subscribers. A subscriber sees what is published after it
subscribed, in order. The bus keeps a limited number of the latest events: a subscriber that has
not read an event before it is dropped is told once how many it lost and goes on with the oldest
event kept. A closed bus still hands out what it keeps.
-/

namespace CompilerDriver

/-- The number of events kept unless stated otherwise. -/
def defaultEventCapacity : Nat := 64

/-- The least power of two that is at least `n`. -/
def powerOfTwoFrom (n : Nat) : Nat := if n ≤ 1 then 1 else Nat.pow 2 ((n - 1).log2 + 1)

/-- Everything that was published, and how much of it is kept. -/
structure EventBus where
  capacity : Nat
  history : Array Event := #[]
  closed : Bool := false

/-- How far a subscriber has read. -/
structure Subscriber where
  next : Nat

/-- What a subscriber gets. -/
inductive Received where
  | event (e : Event)
  | lagged (count : Nat)
  | empty
  | closed

namespace EventBus

/-- A bus that keeps at least `capacity` events, and at least one. -/
def new (capacity : Nat) : EventBus := { capacity := powerOfTwoFrom capacity }

/-- Publishes an event. -/
def publish (bus : EventBus) (e : Event) : EventBus :=
  if bus.closed then bus else { bus with history := bus.history.push e }

/-- A subscriber that has read nothing. -/
def subscribe (bus : EventBus) : Subscriber := ⟨bus.history.size⟩

/-- No more events will be published. -/
def close (bus : EventBus) : EventBus := { bus with closed := true }

/-- The index of the oldest event kept. -/
def oldest (bus : EventBus) : Nat := bus.history.size - bus.capacity

/-- What a subscriber gets next. -/
def receive (bus : EventBus) (s : Subscriber) : Received × Subscriber :=
  if s.next < bus.oldest then (.lagged (bus.oldest - s.next), ⟨bus.oldest⟩)
  else
    match bus.history[s.next]? with
    | some e => (.event e, ⟨s.next + 1⟩)
    | none => (if bus.closed then .closed else .empty, s)

/-- All that a subscriber gets until nothing is left, at most `fuel` times. -/
def receiveAll (bus : EventBus) (s : Subscriber) : Nat → List Received × Subscriber
  | 0 => ([], s)
  | fuel + 1 =>
    match bus.receive s with
    | (.empty, s) => ([], s)
    | (.closed, s) => ([], s)
    | (received, s) =>
      let (more, s) := bus.receiveAll s fuel
      (received :: more, s)

/-- All that a subscriber gets until nothing is left. -/
def drain (bus : EventBus) (s : Subscriber) : List Received × Subscriber :=
  bus.receiveAll s (bus.history.size + 1 - s.next)

end EventBus

end CompilerDriver
