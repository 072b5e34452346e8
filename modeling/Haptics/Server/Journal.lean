import Haptics.Server.Basic
/-!
# Reading a server

What outsiders see of a server: its journal, by link and by session, and its events, through
subscriptions of their own.
-/

namespace Haptics

/-- Whether a message tells of an event, unasked. -/
def Message.tellsOfEvent (m : Message) : Bool :=
  m.id = 0 &&
    match m.payload with
    | .deviceAdded _ | .deviceRemoved _ | .sensorReading .. => true
    | _ => false

namespace Server

variable {L : Type}

/-- The writes that a link accepted, in order. -/
def acceptedOn (s : Server L) (link : LinkId) : List Write :=
  s.journal.filterMap fun
    | .happened (.traffic l (.wrote w true)) => if l = link then some w else none
    | _ => none

/-- The messages that reached the client of a session, in order. -/
def sentTo (s : Server L) (session : String) : List Message :=
  s.journal.filterMap fun
    | .sent name m => if name = session then some m else none
    | _ => none

/-- The reasons that the owner of a session heard at its close. -/
def closesOf (s : Server L) (session : String) : List ErrorCode :=
  s.journal.filterMap fun
    | .closed name reason => if name = session then some reason else none
    | _ => none

/-- Subscribes to all events of a server. A server without an emitter gives nothing to subscribe
to. -/
def subscribe (s : Server L) (queueSize : Nat) : Subscription × Server L :=
  match s.emitter with
  | none => (.vacant, s)
  | some m =>
    let (id, m) := m.subscribe {} queueSize
    (id.elim .vacant .attached, { s with emitter := some m })

/-- Takes all events that wait for a subscription. -/
def drain (s : Server L) (sub : Subscription) : List Event × Subscription × Server L :=
  match s.emitter with
  | none => ([], sub, s)
  | some m =>
    let (events, sub, m) := sub.drain m
    (events, sub, { s with emitter := some m })

end Server

end Haptics
