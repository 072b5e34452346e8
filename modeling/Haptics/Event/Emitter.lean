import Haptics.Event.Queue
/-!
# Emitters

An emitter numbers events from 1 and puts each into the queue of every subscriber that wants it. A
subscription is the subscriber's end: while it is attached its queue is with the emitter, and once
it is detached the queue is its own, closed, with the events not yet taken.
-/

namespace Haptics

/-- The number of a subscription, counted from 1. -/
abbrev SubscriptionId := Nat

structure Subscriber where
  id : SubscriptionId
  filter : EventFilter
  queue : EventQueue
deriving DecidableEq, Repr

structure Emitter where
  /-- The queue size of subscribers that ask for none. -/
  defaultQueueSize : Nat := 256
  /-- The number of subscribers allowed at once; 0 allows any number. -/
  maxSubscribers : Nat := 0
  subscribers : List Subscriber := []
  nextSubscription : SubscriptionId := 1
  nextEvent : Nat := 1
deriving DecidableEq, Repr

/-- The subscriber's end of a subscription. -/
inductive Subscription
  | attached (id : SubscriptionId)
  | detached (queue : EventQueue)
  /-- A subscription that was handed on to another holder. -/
  | vacant
deriving DecidableEq, Repr

namespace Emitter

/-- The queue of a subscriber. -/
def queue? (m : Emitter) (id : SubscriptionId) : Option EventQueue :=
  (m.subscribers.find? fun s => s.id = id).map Subscriber.queue

/-- Replaces the queue of a subscriber. -/
def setQueue (m : Emitter) (id : SubscriptionId) (q : EventQueue) : Emitter :=
  { m with subscribers :=
      m.subscribers.map fun s => if s.id = id then { s with queue := q } else s }

/-- Whether no further subscriber is allowed. -/
def full (m : Emitter) : Bool :=
  0 < m.maxSubscribers && m.maxSubscribers ≤ m.subscribers.length

/-- Adds a subscriber, unless there are as many as are allowed. -/
def subscribe (m : Emitter) (filter : EventFilter) (queueSize : Nat) :
    Option SubscriptionId × Emitter :=
  if m.full then (none, m)
  else
    let size := if 0 < queueSize then queueSize else m.defaultQueueSize
    (some m.nextSubscription,
      { m with subscribers := m.subscribers ++ [⟨m.nextSubscription, filter, { size }⟩],
               nextSubscription := m.nextSubscription + 1 })

/-- Removes a subscriber. -/
def unsubscribe (m : Emitter) (id : SubscriptionId) : Emitter :=
  { m with subscribers := m.subscribers.filter fun s => s.id ≠ id }

/-- Offers an event to a subscriber that wants it. -/
def offer (e : Event) (s : Subscriber) : Subscriber :=
  if s.filter.wants e.body then { s with queue := (s.queue.push e).2 } else s

/-- Numbers an event and offers it to every subscriber. -/
def emit (m : Emitter) (body : DeviceEvent) (timestampMs : Int) : Emitter :=
  { m with subscribers := m.subscribers.map (offer { id := m.nextEvent, body, timestampMs }),
           nextEvent := m.nextEvent + 1 }

/-- Takes the oldest event of a subscriber. -/
def pop (m : Emitter) (id : SubscriptionId) : Option Event × Emitter :=
  match m.queue? id with
  | some q => let (e, q) := q.pop; (e, m.setQueue id q)
  | none => (none, m)

end Emitter

namespace Subscription

/-- The number of an attached subscription, and 0 for any other. -/
def id : Subscription → SubscriptionId
  | attached id => id
  | _ => 0

/-- The queue of a subscription, wherever it is. -/
def queue? (m : Emitter) : Subscription → Option EventQueue
  | attached id => m.queue? id
  | detached q => some q
  | vacant => none

/-- Whether further events can arrive. -/
def isActive (s : Subscription) (m : Emitter) : Bool := (s.queue? m).any (!·.closed)

def overflowed (s : Subscription) (m : Emitter) : Bool := (s.queue? m).any (·.overflowed)

/-- The number of events waiting. -/
def size (s : Subscription) (m : Emitter) : Nat := (s.queue? m).elim 0 (·.items.length)

/-- Takes the oldest event. -/
def pop (s : Subscription) (m : Emitter) : Option Event × Subscription × Emitter :=
  match s with
  | attached id => let (e, m) := m.pop id; (e, s, m)
  | detached q => let (e, q) := q.pop; (e, detached q, m)
  | vacant => (none, s, m)

/-- Takes all events that are waiting. -/
def drain (s : Subscription) (m : Emitter) : List Event × Subscription × Emitter :=
  match s with
  | attached id =>
    match m.queue? id with
    | some q => (q.items, s, m.setQueue id { q with items := [] })
    | none => ([], s, m)
  | detached q => (q.items, detached { q with items := [] }, m)
  | vacant => ([], s, m)

/-- Ends a subscription. The events not yet taken stay with it. -/
def unsubscribe (s : Subscription) (m : Emitter) : Subscription × Emitter :=
  match s with
  | attached id =>
    (match m.queue? id with
      | some q => detached q.close
      | none => vacant, m.unsubscribe id)
  | _ => (s, m)

end Subscription

end Haptics
