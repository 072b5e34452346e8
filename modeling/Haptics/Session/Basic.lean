import Haptics.Event.Emitter
import Haptics.Fleet.Sweep
import Haptics.Session.Message
import Haptics.Session.Violation
/-!
# Sessions

The state of the conversation with one client. A session awaits the client's handshake, is ready
once it has it, and ends closed. Requests that touch devices are queued for the session's worker;
an id is outstanding from its request to its reply. Whatever a session does is a step that gives the
session afterwards and its outputs; `send` and `close` are the outputs all steps are made of.
-/

namespace Haptics

inductive Phase
  | awaitingHandshake
  | ready
  | closed
deriving DecidableEq, Repr

def Phase.name : Phase → String
  | awaitingHandshake => "AwaitingHandshake"
  | ready => "Ready"
  | closed => "Closed"

/-- Which devices a session stops when its client falls silent. -/
inductive StopScope
  /-- Every connected device. -/
  | global
  /-- The devices that the session was asked to command. -/
  | session
deriving DecidableEq, Repr

namespace StopScope

def name : StopScope → String
  | global => "global"
  | session => "session"

def ofName? (text : String) : Option StopScope :=
  [global, session].find? fun scope => scope.name = text

end StopScope

/-- What a server offers in its sessions. -/
structure Terms where
  serverName : String := "tactile"
  minVersion : UInt32 := 1
  maxVersion : UInt32 := 3
  /-- How long a client may be silent; 0 sets no limit. -/
  maxPingTimeMs : UInt32 := 1000
  stopScope : StopScope := .global
  /-- The size of the event queue; 0 leaves it to the emitter. -/
  eventQueueSize : Nat := 256
deriving DecidableEq, Repr

/-- A time, in microseconds. -/
abbrev Time := Int

/-- What a worker does for a client. -/
inductive Task
  | command (device : UInt32) (c : Command)
  | stopAll
deriving DecidableEq, Repr

/-- A task and the id its reply will have. -/
structure Work where
  id : UInt32
  task : Task
deriving DecidableEq, Repr

/-- A sweep under way. -/
structure Sweep where
  report : StopReport := {}
  /-- The devices still to be stopped. -/
  targets : List Nat
deriving DecidableEq, Repr

/-- How far the worker of a session is with its task. -/
inductive Stage
  | idle
  /-- A task was taken from the queue. -/
  | taken (w : Work)
  /-- The task may be run. -/
  | cleared (w : Work)
  /-- The task is a sweep, and it is under way. -/
  | sweeping (w : Work) (sweep : Sweep)
  /-- The task was run and has a result. -/
  | executed (w : Work) (result : Payload)
  /-- The client fell silent meanwhile, and devices are stopped once more before the reply. -/
  | restopping (w : Work) (result : Payload) (sweep : Sweep)
  /-- Only the reply is left. -/
  | settled (w : Work) (result : Payload)
deriving DecidableEq, Repr

structure Session where
  name : String
  terms : Terms := {}
  phase : Phase := .awaitingHandshake
  closeReason : ErrorCode := .ok
  /-- The version agreed on in the handshake. -/
  version : UInt32 := 0
  clientName : String := ""
  /-- When the client last showed a sign of life. -/
  lastActivity : Time
  /-- Whether the client's silence was noticed; the stop and the close follow. -/
  pingClaimed : Bool := false
  /-- The ids of the requests without a reply. -/
  outstanding : List UInt32 := []
  /-- The devices that accepted commands name, in increasing order. -/
  commanded : List UInt32 := []
  /-- The work not yet taken, oldest first. -/
  work : List Work := []
  stage : Stage := .idle
  /-- Whether the worker and the forwarding of events run. -/
  running : Bool := false
  /-- The subscription to events. -/
  subscription : Option SubscriptionId := none
deriving DecidableEq, Repr

/-- What a step of a session does to the outside. -/
inductive Output
  /-- A message for the client. -/
  | sent (m : Message)
  /-- The owner of the session learns that it is closed, and why. -/
  | closed (reason : ErrorCode)
deriving DecidableEq, Repr

/-- What a step of a session leaves behind. -/
structure Reaction where
  /-- Whether the session goes on. -/
  alive : Bool
  session : Session
  outputs : List Output := []
deriving DecidableEq, Repr

namespace Session

/-- Sends a message, unless the session is closed. -/
def send (s : Session) (m : Message) : List Output :=
  if s.phase = .closed then [] else [.sent m]

/-- Closes a session: its queued work is dropped and its requests stay without a reply. -/
def close (s : Session) (reason : ErrorCode) : Session × List Output :=
  if s.phase = .closed then (s, [])
  else
    ({ s with phase := .closed, closeReason := reason, outstanding := [], work := [],
              running := false }, [.closed reason])

/-- Answers a violation and closes the session. -/
def violate (s : Session) (id : UInt32) (v : Violation) : Reaction :=
  let answer := s.send { id, payload := .error v.code v.message }
  let (s, outputs) := s.close v.code
  { alive := false, session := s, outputs := answer ++ outputs }

/-- Sends a reply and frees its id. A reply that nobody waits for is dropped. -/
def reply (s : Session) (id : UInt32) (payload : Payload) : Session × List Output :=
  if s.phase = .closed ∨ id ∉ s.outstanding then (s, [])
  else ({ s with outstanding := s.outstanding.erase id }, [.sent { id, payload }])

end Session

end Haptics
