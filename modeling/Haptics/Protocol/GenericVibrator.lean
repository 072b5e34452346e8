import Haptics.Protocol.Target
/-!
# Generic vibrators

Any number of vibrators, each set by a two-byte frame: the motor's address and its step.
-/

namespace Haptics

namespace GenericVibrator

def writeEndpoint : String := "tx"

def stepCount : UInt32 := 100

def toWrite (data : Bytes) : Write := { endpoint := writeEndpoint, data }

/-- The frame for a motor and a step. -/
def frame (index step : UInt32) : Bytes := [(0xa0 + index).toUInt8, step.toUInt8]

/-- One frame for each target. -/
def encode (kind : ActuatorKind) (targets : List Target) : Except Fault (List Bytes) :=
  if kind = .vibrate then .ok (targets.map fun t => frame t.index t.step)
  else .error (.unsupportedKind .genericVibrator kind)

/-- The frames that stop a device: one for each vibrator. -/
def stopFrames (c : Capabilities) : List Bytes :=
  (c.actuators.filter fun a => a.kind = .vibrate).map fun a => frame a.index 0

end GenericVibrator

end Haptics
