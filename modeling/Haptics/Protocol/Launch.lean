import Haptics.Protocol.Target
/-!
# Launch

A linear stroker that takes two-byte frames: a position and a speed. Clients give a position and a
duration; the speed follows from the distance to the last position, by a fit of stroke times. A
stroker holds its position when no move is pending, so it needs no frame to stop.
-/

namespace Haptics

namespace Launch

def writeEndpoint : String := "tx"

def stepCount : UInt32 := 99

def toWrite (data : Bytes) : Write := { endpoint := writeEndpoint, data }

/-- The numbers of the fit: `scale * (duration * 90 / (distance * 100)) ^ power`. -/
def fitScale : Binary64 := .ofNat 25000

/-- The power of the fit, -1.05. -/
def fitPower : Binary64 := .ofDecimal true 105 2

/-- The speed that covers a part of the full stroke in a time: none for no distance, and the
greatest for no time. -/
def speedFor (distance : Binary64) (durationMs : UInt32) : UInt8 :=
  if distance.le .zero then 0
  else if durationMs = 0 then 99
  else
    let stretch := .ofNat durationMs.toNat * .ofNat 90 / (distance * .ofNat 100)
    let speed := (fitScale * stretch.pow fitPower).nearestInt64
    UInt8.ofNat (min speed.toNat 99)

/-- The part of the full stroke between two positions. -/
def distance (a b : UInt32) : Binary64 :=
  (Binary64.ofNat a.toNat - .ofNat b.toNat).abs / .ofNat stepCount.toNat

/-- The frames of consecutive moves from a position, and the position after them. -/
def moves (last : UInt32) : List Target → List Bytes × UInt32
  | [] => ([], last)
  | t :: rest =>
    let speed := speedFor (distance t.step last) t.setting.durationMs
    let (frames, final) := moves t.step rest
    ([t.step.toUInt8, speed] :: frames, final)

/-- One frame for each target, and the position that the last of them leads to. -/
def encode (last : UInt32) (kind : ActuatorKind) (targets : List Target) :
    Except Fault (List Bytes × UInt32) :=
  if kind = .linear then .ok (moves last targets)
  else .error (.unsupportedKind .launch kind)

end Launch

end Haptics
