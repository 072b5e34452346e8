import Haptics.Frame.Stream
/-!
# Connections

Two frame streams, where the bytes sent at one end arrive at the other. Operations act on the left
end; `swap` gives the connection with the other end on the left. An end that is shut down or closed
ends both streams, and what has arrived before can still be read.
-/

namespace Haptics

/-- The two ends of a connection. -/
structure Connection where
  left : FrameStream := {}
  right : FrameStream := {}
deriving DecidableEq, Repr

namespace Connection

/-- The connection as its other end sees it. -/
def swap (c : Connection) : Connection := { left := c.right, right := c.left }

/-- Writes a frame at the left end, and gives whether it was written to the last byte. -/
def write (c : Connection) (payload : Bytes) (limitMs : Option Nat) : Bool × Connection :=
  let turns := c.left.sendTurns limitMs (Frame.encode payload).length
  let (sent, stop) := Frame.write payload turns
  let writeFault :=
    match stop with
    | some (.failed e) => some e
    | _ => none
  (stop.isNone, { left := { c.left with writeFault }, right := c.right.arrive sent })

/-- Sends plain bytes at the left end, and gives whether they were sent. -/
def send (c : Connection) (bytes : Bytes) : Bool × Connection :=
  if c.left.canSend then (true, { c with right := c.right.arrive bytes }) else (false, c)

/-- Takes plain bytes at the left end: those that have arrived, up to a number. -/
def receive (c : Connection) (n : Nat) : Bytes × Connection :=
  let (bytes, arrived) := FrameStream.take n c.left.arrived
  let peerReset := c.left.peerReset && !c.left.arrived.isEmpty
  (bytes, { c with left := { c.left with arrived, peerReset } })

/-- Reads a frame at the left end. -/
def read (c : Connection) (limited : Bool) : Option Bytes × Connection :=
  let (frame, left) := c.left.read limited
  (frame, { c with left })

/-- Shuts the left end down, both ways. -/
def shutDown (c : Connection) : Connection :=
  { left := { c.left with shutDown := true },
    right := { c.right with peerGone := c.right.peerGone || c.left.valid } }

/-- Closes the left end. -/
def close (c : Connection) : Connection :=
  { c.shutDown with
    right := { c.shutDown.right with
      peerReset := c.right.peerReset || !c.left.arrived.isEmpty } }

end Connection

end Haptics
