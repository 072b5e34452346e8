import Haptics.Scan.Discovery
import Haptics.Server.Seat
import Haptics.Session.Listening
import Haptics.Session.Silence
/-!
# Servers

A server is a fleet, the emitter of its events, the queue of scan events and the sessions of its
clients. Operations change one part of it; what is left to do afterwards, such as work that was
queued, is done by `Server.settle`. Emitted events are forwarded to the clients at once, so that a
queue overflows only while the channel to its client is held.
-/

namespace Haptics

/-- The watch over silent clients. -/
structure Monitor where
  running : Bool := false
  /-- The numbers of the seats watched, in the order they were added. -/
  seats : List Nat := []
deriving DecidableEq, Repr

structure Server (L : Type) where
  fleet : Fleet L := {}
  /-- The emitter of events. A server without one tells nobody of them. -/
  emitter : Option Emitter := some {}
  scans : ScanQueue := {}
  discovery : Discovery := {}
  monitor : Monitor := {}
  /-- The seats, by the names of their sessions. -/
  seats : Table String Seat := {}
  /-- The number of the next seat. -/
  nextSeat : Nat := 0
  now : Time := 0
  /-- The links on which writes have to wait. -/
  heldLinks : List LinkId := []
  /-- The sessions whose workers wait on a held link, with the devices they wait at. -/
  stalled : Table String Nat := {}
  journal : List Note := []

namespace Server

variable {L α : Type} [Link L]

/-- Enters notes into the journal. -/
def note (s : Server L) (notes : List Note) : Server L :=
  { s with journal := s.journal ++ notes }

/-- Takes over a session that has made a step, and lets its outputs take effect. -/
def enter (s : Server L) (seat : Seat) (session : Session) (outputs : List Output) : Server L :=
  let seat : Seat := { seat with session }
  ({ s with seats := s.seats.insert session.name seat } : Server L).note (seat.notes outputs)

/-! ## Events -/

/-- One turn of the forwarding to a client. On a held channel the first event message gets stuck,
and the others wait in their queue. -/
def listenTurn (name : String) (s : Server L) : Server L :=
  match s.seats.get? name, s.emitter with
  | some seat, some emitter =>
    if seat.channel.stuck.isSome then s
    else
      let (session, emitter, outputs) := seat.session.listen emitter
      let s : Server L := { s with emitter := some emitter }
      match seat.channel.held, outputs with
      | true, [.sent m] =>
        s.enter { seat with channel := { seat.channel with stuck := some m } } session []
      | _, _ => s.enter seat session outputs
  | _, _ => s

/-- The queue of the events that wait for a session. -/
def queue? (s : Server L) (name : String) : Option EventQueue := do
  let seat ← s.seats.get? name
  let emitter ← s.emitter
  emitter.queue? (← seat.session.subscription)

/-- The number of events that wait for a session. -/
def backlog (s : Server L) (name : String) : Nat := (s.queue? name).elim 0 (·.items.length)

/-- Forwards the events that wait for a session. -/
def listen (s : Server L) (name : String) : Server L :=
  (s.backlog name + 1).repeat (listenTurn name) s

/-- Forwards all events that wait. -/
def listenAll (s : Server L) : Server L :=
  s.seats.entries.foldl (fun s e => s.listen e.1) s

/-- Emits an event and forwards it. -/
def emit (s : Server L) (body : DeviceEvent) (timestampMs : Int) : Server L :=
  ({ s with emitter := s.emitter.map (·.emit body timestampMs) } : Server L).listenAll

/-- Lets one thing that happened to the fleet take effect. -/
def publishOne (s : Server L) (h : Happening) : Server L :=
  let s := s.note [.happened h]
  match h with
  | .emitted body => s.emit body 0
  | .traffic .. => s

/-- Lets what happened to the fleet take effect, in order. -/
def publish (s : Server L) (trace : List Happening) : Server L := trace.foldl publishOne s

/-! ## The fleet -/

/-- Runs an operation on the fleet. -/
def onFleet (s : Server L) (op : Fleet L → Outcome L α) : α × Server L :=
  let out := op s.fleet
  (out.answer, ({ s with fleet := out.fleet } : Server L).publish out.trace)

/-- Takes over what a turn of a session left behind. -/
def commit (s : Server L) (seat : Seat) (turn : Session.Turn L) : Server L :=
  (({ s with fleet := turn.fleet } : Server L).enter seat turn.session turn.outputs).publish
    turn.trace

/-- Makes writes on a link wait. -/
def holdLink (s : Server L) (link : LinkId) : Server L :=
  { s with heldLinks := link :: s.heldLinks }

/-- Lets the writes on a link go on. -/
def releaseLink (s : Server L) (link : LinkId) : Server L :=
  { s with heldLinks := s.heldLinks.filter (· ≠ link) }

/-! ## Discovery -/

/-- Applies a scan event. -/
def applyScan (s : Server L) (e : ScanEvent) : Server L :=
  let (_, s) := s.onFleet fun f => f.discover e
  { s with discovery := { s.discovery with processed := s.discovery.processed + 1 } }

/-- One turn of the discovery: the oldest scan event is taken from the queue and applied. -/
def discoverTurn (s : Server L) : Server L :=
  match s.scans.pop with
  | (none, _) => s
  | (some e, scans) => ({ s with scans } : Server L).applyScan e

/-- Applies all scan events that wait, if the discovery runs. -/
def discover (s : Server L) : Server L :=
  if s.discovery.running then s.scans.items.length.repeat discoverTurn s else s

/-- Offers a scan event to the queue. -/
def pushScan (s : Server L) (e : ScanEvent) : Bool × Server L :=
  let (accepted, scans) := s.scans.push e
  (accepted, { s with scans })

/-- Closes the queue to further scan events. -/
def closeScans (s : Server L) : Server L := { s with scans := s.scans.close }

def startDiscovery (s : Server L) : Server L :=
  { s with discovery := { s.discovery with running := true } }

/-- Stops the discovery. What waits in the queue is applied first. -/
def stopDiscovery (s : Server L) : Server L :=
  let s := s.discover
  { s with discovery := { s.discovery with running := false } }

end Server

end Haptics
