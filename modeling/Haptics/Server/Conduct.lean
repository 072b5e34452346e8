import Haptics.Server.Work
import Haptics.Session.Conversation
/-!
# The conduct of sessions

Operations on one session of a server, by its name. A name without a session stands for a session
that does nothing.
-/

namespace Haptics

namespace Server

variable {L : Type} [Link L]

/-- Opens a session. -/
def addSession (s : Server L) (name : String) (terms : Terms) (listens notifies : Bool) :
    Server L :=
  let seat : Seat :=
    { number := s.nextSeat, session := { name, terms, lastActivity := s.now }, listens, notifies }
  { s with seats := s.seats.insert name seat, nextSeat := s.nextSeat + 1 }

/-- Starts the worker of a session and the forwarding of events, and gives whether the session has
a subscription. -/
def start (s : Server L) (name : String) : Bool × Server L :=
  match s.seats.get? name with
  | none => (false, s)
  | some seat =>
    let (session, emitter) := seat.session.start (if seat.listens then s.emitter else none)
    let emitter := if seat.listens then emitter else s.emitter
    (session.subscription.isSome, ({ s with emitter } : Server L).enter seat session [])

/-- Hands a message of the client to its session, and gives whether the session goes on. -/
def receive (s : Server L) (name : String) (m : Message) : Bool × Server L :=
  match s.seats.get? name with
  | none => (false, s)
  | some seat =>
    let r := seat.session.receive m s.now s.fleet.entries
    (r.alive, s.enter seat r.session r.outputs)

/-- Hands messages to a session one after the other. -/
def receiveEach (s : Server L) (name : String) : List Message → List Bool × Server L
  | [] => ([], s)
  | m :: rest =>
    let (alive, s) := s.receive name m
    let (others, s) := s.receiveEach name rest
    (alive :: others, s)

/-- Closes a session. -/
def close (s : Server L) (name : String) (reason : ErrorCode) : Server L :=
  match s.seats.get? name with
  | none => s
  | some seat =>
    let (session, outputs) := seat.session.close reason
    s.enter seat session outputs

/-- Claims the silence of the client of a session, if it is too long. -/
def claimPing (s : Server L) (name : String) : Bool × Server L :=
  match s.seats.get? name with
  | none => (false, s)
  | some seat =>
    let (claimed, session) := seat.session.claim s.now
    (claimed, s.enter seat session [])

/-- Follows up a claimed silence: the safety stop, then the close. -/
def pingStop (s : Server L) (name : String) : Server L :=
  match s.seats.get? name with
  | none => s
  | some seat => s.commit seat (seat.session.pingStop s.fleet)

/-- Claims the silence of a client and follows it up. -/
def checkPing (s : Server L) (name : String) : Bool × Server L :=
  match s.seats.get? name with
  | none => (false, s)
  | some seat =>
    let (fired, turn) := seat.session.checkPing s.fleet s.now
    (fired, s.commit seat turn)

/-- Ends a session without closing it. -/
def dismiss (s : Server L) (name : String) : Server L :=
  let s := s.join name
  { s with seats := s.seats.erase name }

/-! ## Channels -/

/-- Changes the channel of a session. -/
def onChannel (s : Server L) (name : String) (change : Channel → Channel) : Server L :=
  { s with seats := s.seats.modify name fun seat => { seat with channel := change seat.channel } }

/-- Makes the channel of a session lose its messages, or ends that. -/
def breakChannel (s : Server L) (name : String) (broken : Bool) : Server L :=
  s.onChannel name fun c => { c with broken }

/-- Makes event messages get stuck in the channel of a session. -/
def holdChannel (s : Server L) (name : String) : Server L :=
  s.onChannel name fun c => { c with held := true }

/-- Lets the message that is stuck in the channel of a session go through. -/
def releaseChannel (s : Server L) (name : String) : Server L :=
  match s.seats.get? name with
  | none => s
  | some seat =>
    let channel := { seat.channel with held := false, stuck := none }
    s.enter { seat with channel } seat.session (seat.channel.stuck.toList.map .sent)

end Server

end Haptics
