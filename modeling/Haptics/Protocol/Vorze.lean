import Haptics.Protocol.Target
/-!
# Vorze

A rotator that takes three-byte frames: the device type, the command, and a byte with the direction
in its high bit and the speed in the others.
-/

namespace Haptics

namespace Vorze

def writeEndpoint : String := "tx"

def stepCount : UInt32 := 99

def toWrite (data : Bytes) : Write := { endpoint := writeEndpoint, data }

/-- The frame for a direction and a speed. -/
def frame (clockwise : Bool) (speed : UInt32) : Bytes :=
  [1, 1, (if clockwise then 0x80 else 0x00) ||| (speed &&& 0x7f).toUInt8]

/-- One frame for each target. -/
def encode (kind : ActuatorKind) (targets : List Target) : Except Fault (List Bytes) :=
  if kind = .rotate then .ok (targets.map fun t => frame t.setting.clockwise t.step)
  else .error (.unsupportedKind .vorze kind)

/-- The frame that stops a device. -/
def stopFrame : Bytes := [1, 1, 0]

end Vorze

end Haptics
