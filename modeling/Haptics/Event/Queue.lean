import Haptics.Event.Basic
/-!
# Event queues

The bounded queue of one subscriber. A full queue never drops an event in silence: the first event
it has no room for closes it and marks it as overflowed, and it accepts nothing from then on. What
it holds can still be taken.
-/

namespace Haptics

structure EventQueue where
  /-- The size asked for. A queue has room for one event at least. -/
  size : Nat
  items : List Event := []
  overflowed : Bool := false
  closed : Bool := false
deriving DecidableEq, Repr

namespace EventQueue

/-- The number of events a queue has room for. -/
def capacity (q : EventQueue) : Nat := max 1 q.size

/-- Offers an event to a queue. -/
def push (q : EventQueue) (e : Event) : Bool × EventQueue :=
  if q.closed then (false, q)
  else if q.capacity ≤ q.items.length then (false, { q with overflowed := true, closed := true })
  else (true, { q with items := q.items ++ [e] })

/-- Takes the oldest event. -/
def pop (q : EventQueue) : Option Event × EventQueue :=
  match q.items with
  | [] => (none, q)
  | e :: rest => (some e, { q with items := rest })

/-- Closes a queue to further events. -/
def close (q : EventQueue) : EventQueue := { q with closed := true }

end EventQueue

end Haptics
