import Haptics.Device.Identity
import Haptics.Link.Basic
/-!
# Scan events

What scanners report: a device was found, a device was lost, a device sent bytes. The events wait in
a bounded queue until they are applied to the fleet. Nothing that was accepted into the queue is
lost; a queue that is full or closed refuses what it is offered.
-/

namespace Haptics

inductive ScanEvent
  /-- A device was found, with the services it advertises and the link to it. -/
  | found (identity : Identity) (services : List String) (link : Option LinkId)
  | lost (identity : Identity)
  /-- A device sent bytes from one of its endpoints. -/
  | notification (identity : Identity) (endpoint : String) (data : Bytes)
deriving DecidableEq, Repr

structure ScanQueue where
  /-- The size asked for. A queue has room for one event at least. -/
  size : Nat := 1024
  items : List ScanEvent := []
  closed : Bool := false
deriving DecidableEq, Repr

namespace ScanQueue

/-- The number of events a queue has room for. -/
def capacity (q : ScanQueue) : Nat := max 1 q.size

/-- Offers an event to a queue. -/
def push (q : ScanQueue) (e : ScanEvent) : Bool × ScanQueue :=
  if q.closed ∨ q.capacity ≤ q.items.length then (false, q)
  else (true, { q with items := q.items ++ [e] })

/-- Takes the oldest event. -/
def pop (q : ScanQueue) : Option ScanEvent × ScanQueue :=
  match q.items with
  | [] => (none, q)
  | e :: rest => (some e, { q with items := rest })

/-- Closes a queue to further events. -/
def close (q : ScanQueue) : ScanQueue := { q with closed := true }

end ScanQueue

end Haptics
