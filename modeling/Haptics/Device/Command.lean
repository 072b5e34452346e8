import Haptics.Device.Capability
import Haptics.Text.Bytes
/-!
# Commands and traffic

What clients ask of a device, in terms of its capabilities, and what passes between the server and
the device in answer: raw writes one way and sensor readings the other.
-/

namespace Haptics

/-- The value one actuator is to take. The direction is of use to rotators only and the duration to
linear actuators only. -/
structure Setting where
  index : UInt32 := 0
  value : Binary64 := .zero
  clockwise : Bool := true
  durationMs : UInt32 := 0
deriving DecidableEq, Repr

inductive Command
  /-- Sets actuators of one kind. -/
  | actuate (kind : ActuatorKind) (settings : List Setting)
  /-- Writes bytes to the endpoint of a raw-write actuator. -/
  | rawWrite (index : UInt32) (data : Bytes) (withResponse : Bool)
  | readSensor (index : UInt32)
  /-- Stops every actuator of the device. -/
  | stop
deriving DecidableEq, Repr

def Command.name : Command → String
  | actuate kind _ => kind.name
  | rawWrite .. => "RawWrite"
  | readSensor _ => "SensorRead"
  | stop => "StopDevice"

/-- Bytes for one endpoint of a device. -/
structure Write where
  endpoint : String
  data : Bytes
  withResponse : Bool := false
deriving DecidableEq, Repr

/-- The write of the UTF-8 bytes of a text. -/
def Write.ofText (endpoint text : String) : Write :=
  { endpoint, data := Bytes.ofText text }

structure Reading where
  kind : SensorKind := .battery
  index : UInt32 := 0
  value : Binary64 := .zero
deriving DecidableEq, Repr

end Haptics
