import Haptics.Frame.Basic
import Haptics.Frame.Fault
/-!
# Moving frames

A frame is sent and received in turns. In each of them the system moves some of the bytes, or none
for now, or puts an end to it; how many bytes it moves is its own affair. A frame that is too large
is not sent at all, and one whose length says so is not received. Waiting for a frame to begin takes
no byte; whoever gives up later has taken what came.
-/

namespace Haptics

namespace Frame

/-- What the system does in a turn of sending. -/
inductive SendTurn
  /-- It takes bytes: at least one, and at most all that are left. -/
  | took (count : Nat)
  /-- It takes none for now: it was interrupted, or has no room. -/
  | again
  | failed (e : StreamFault)
deriving DecidableEq, Repr

/-- What the system does in a turn of receiving. -/
inductive ReceiveTurn
  /-- It has bytes, and gives as many of them as are wanted. -/
  | gave (part : Bytes)
  /-- It was interrupted. -/
  | again
  /-- Nothing follows. -/
  | ended
  | failed (e : StreamFault)
deriving DecidableEq, Repr

/-- What comes of waiting for the first byte of a frame. -/
inductive Wait
  | ready
  | expired
  | failed (e : StreamFault)
deriving DecidableEq, Repr

/-- Why bytes are not moved to the last. -/
inductive Stop
  /-- There has been no further turn. -/
  | waiting
  | ended
  | failed (e : StreamFault)
deriving DecidableEq, Repr

/-- What became of a frame that was to be received. -/
inductive Received
  | frame (payload : Bytes)
  | fault (e : StreamFault)
  /-- There has been no further turn. -/
  | waiting
deriving DecidableEq, Repr

/-- Sends bytes turn by turn. Gives those that the system took, and why that was not all if it was
not. -/
def sendAll : Bytes → List SendTurn → Bytes × Option Stop
  | [], _ => ([], none)
  | _ :: _, [] => ([], some .waiting)
  | b :: bs, .again :: turns => sendAll (b :: bs) turns
  | _ :: _, .failed e :: _ => ([], some (.failed e))
  | b :: bs, .took count :: turns =>
    let (sent, stop) := sendAll ((b :: bs).drop (max 1 count)) turns
    ((b :: bs).take (max 1 count) ++ sent, stop)

/-- Writes the frame of a payload turn by turn. -/
def write (payload : Bytes) (turns : List SendTurn) : Bytes × Option Stop :=
  if maxSize < payload.length then ([], some (.failed (.tooLarge payload.length)))
  else sendAll (encode payload) turns

/-- Receives a number of bytes turn by turn. Gives them, or why there were not so many, and the
turns that are left. -/
def receiveAll : Nat → List ReceiveTurn → Except Stop Bytes × List ReceiveTurn
  | 0, turns => (.ok [], turns)
  | _ + 1, [] => (.error .waiting, [])
  | n + 1, .again :: turns => receiveAll (n + 1) turns
  | _ + 1, .ended :: turns => (.error .ended, .ended :: turns)
  | _ + 1, .failed e :: turns => (.error (.failed e), turns)
  | n + 1, .gave part :: turns =>
    if part.length ≤ n + 1 then
      let (got, turns) := receiveAll (n + 1 - part.length) turns
      (got.map (part ++ ·), turns)
    else (.ok (part.take (n + 1)), .gave (part.drop (n + 1)) :: turns)

/-- What becomes of a frame if its bytes stop. The fault says where the stream ended if it did. -/
def Stop.received (atEnd : StreamFault) : Stop → Received
  | waiting => .waiting
  | ended => .fault atEnd
  | failed e => .fault e

/-- Receives a frame turn by turn. -/
def receive (turns : List ReceiveTurn) : Received × List ReceiveTurn :=
  match receiveAll headSize turns with
  | (.error stop, turns) => (stop.received .endedInHead, turns)
  | (.ok head, turns) =>
    let size := ofDigits head
    if maxSize < size then (.fault (.tooLarge size), turns)
    else
      match receiveAll size turns with
      | (.error stop, turns) => (stop.received .endedInPayload, turns)
      | (.ok payload, turns) => (.frame payload, turns)

/-- What a call to read a frame comes to. -/
structure Reading where
  received : Received
  /-- Whether no frame began in time. -/
  timedOut : Bool := false
  /-- The turns that are left. -/
  rest : List ReceiveTurn
deriving DecidableEq, Repr

/-- Reads a frame. One waits for it to begin if there is a limit on the time. -/
def read (wait : Option Wait) (turns : List ReceiveTurn) : Reading :=
  match wait with
  | some .expired => { received := .fault .noFrame, timedOut := true, rest := turns }
  | some (.failed e) => { received := .fault e, rest := turns }
  | some .ready | none =>
    let (received, rest) := receive turns
    { received, rest }

end Frame

end Haptics
