import Haptics.Frame.Transfer
/-!
# Frame streams

One end of a connection, as the peer and the end itself have left it. Bytes arrive in parts, and a
part says nothing about where frames begin or end. A read that finds no byte of a frame leaves the
stream as it was; one that fails later has taken what it found. What arrived before the end of the
stream is still read.
-/

namespace Haptics

structure FrameStream where
  /-- Whether there is a socket at all. -/
  valid : Bool := true
  /-- The bytes that have arrived, in the parts that they arrived in. -/
  arrived : List Bytes := []
  /-- Whether the end itself was shut down. -/
  shutDown : Bool := false
  /-- Whether the peer was shut down or closed. -/
  peerGone : Bool := false
  /-- Whether the peer was closed with bytes unread, and this end does not know it yet. -/
  peerReset : Bool := false
  readFault : Option StreamFault := none
  writeFault : Option StreamFault := none
deriving DecidableEq, Repr

namespace FrameStream

/-- Whether the end is open: it is until it is shut down. -/
def isOpen (s : FrameStream) : Bool := !s.shutDown

/-- Whether the last read failed because no frame began in time. -/
def timedOut (s : FrameStream) : Bool := s.readFault = some .noFrame

/-- Whether nothing follows what has arrived. -/
def ended (s : FrameStream) : Bool := s.shutDown || s.peerGone

/-- Whether a byte or the end of the stream can be read. -/
def readable (s : FrameStream) : Bool := !s.arrived.isEmpty || s.peerReset || s.ended

/-- Lets bytes arrive. -/
def arrive (s : FrameStream) (bytes : Bytes) : FrameStream :=
  if bytes = [] then s else { s with arrived := s.arrived ++ [bytes] }

/-! ## Reading -/

/-- Takes bytes from parts: as many as asked for, or as many as there are. -/
def take : Nat → List Bytes → Bytes × List Bytes
  | _, [] => ([], [])
  | n, part :: rest =>
    if n = 0 then ([], part :: rest)
    else if part.length ≤ n then
      let (taken, rest) := take (n - part.length) rest
      (part ++ taken, rest)
    else (part.take n, part.drop n :: rest)

/-- The turns in which bytes are received: the parts as they arrived, and then what follows. -/
def receiveTurns (s : FrameStream) : List Frame.ReceiveTurn :=
  s.arrived.map .gave ++
    [if s.peerReset then .failed .reset else if s.ended then .ended else .failed .noMore]

/-- What is left of a stream when some turns are left. The reset by a peer is met once. -/
def leave (s : FrameStream) (turns : List Frame.ReceiveTurn) : FrameStream :=
  let arrived := turns.filterMap fun
    | .gave part => some part
    | _ => none
  { s with arrived, peerReset := s.peerReset && !turns.isEmpty }

/-- Waits for a byte or the end of the stream. -/
def wait (s : FrameStream) : Bool × FrameStream :=
  if !s.valid then (false, { s with readFault := some .notASocket }) else (s.readable, s)

/-- What comes of waiting for a frame to begin. -/
def waits (s : FrameStream) : Frame.Wait := if s.readable then .ready else .expired

/-- Reads a frame. With a limit on the time, a stream that has nothing to read is left alone. -/
def read (s : FrameStream) (limited : Bool) : Option Bytes × FrameStream :=
  if !s.valid then
    (none, { s with readFault := some (if limited then .notASocket else .unreadable) })
  else
    let reading := Frame.read (if limited then some s.waits else none) s.receiveTurns
    let s := s.leave reading.rest
    match reading.received with
    | .frame payload => (some payload, { s with readFault := none })
    | .fault e => (none, { s with readFault := some e })
    | .waiting => (none, { s with readFault := none })

/-! ## Writing -/

/-- Whether bytes can be sent to the peer. -/
def canSend (s : FrameStream) : Bool := s.valid && !s.ended

/-- The turns in which a number of bytes are sent within a number of milliseconds: the system takes
them at once, or not at all. No number sets no limit. -/
def sendTurns (s : FrameStream) (limitMs : Option Nat) (count : Nat) : List Frame.SendTurn :=
  if limitMs = some 0 ∨ (s.valid = false ∧ limitMs.isSome) then [.failed .noTimeToWrite]
  else if !s.valid then [.failed .unwritable]
  else if s.ended then [.failed .broken]
  else [.took count]

end FrameStream

end Haptics
