import FlowEngine.Event.Basic
/-!
# `FlowEngine.Event.Bus` — every listener hears every event

A bus carries the events of all runs.  A listener is a position in the sequence of events: it hears
what is published behind it, in order.  The bus keeps only the latest events, as many as its
capacity; a listener that has fallen further behind loses the oldest ones and is told how many.
-/

namespace FlowEngine

/-- The events published so far, the latest first, and how many of them can still be heard. -/
structure Bus where
  capacity : Nat
  log : List Event := []

namespace Bus

/-- A bus of at least the capacity asked for: the next power of two, and never less than one. -/
def ofCapacity (asked : Nat) : Bus := { capacity := (max asked 1).nextPowerOfTwo }

def publish (bus : Bus) (event : Event) : Bus := { bus with log := event :: bus.log }

def position (bus : Bus) : Nat := bus.log.length

/-- How many events a listener has lost for good. -/
def lost (bus : Bus) (position : Nat) : Nat := bus.position - bus.capacity - position

/-- The events that a listener can still hear, in the order of their publication. -/
def heardFrom (bus : Bus) (position : Nat) : List Event :=
  (bus.log.take (bus.position - position - bus.lost position)).reverse

end Bus

end FlowEngine
