import Haptics.Device.Capability
import Haptics.ErrorCode
/-!
# Numbers on the wire

The numbers that stand for kinds and codes in envelopes. They leave 0 to kinds that are not given.
A kind or a code that has no number is sent as one that has; a number that stands for nothing is
read as one that does.
-/

namespace Haptics

namespace ActuatorKind

/-- The number that a kind is sent as. -/
def toWire : ActuatorKind → Int
  | vibrate => 1
  | rotate => 2
  | linear => 3
  | rawWrite => 4
  | undeclared _ => 0

/-- The kind that a number stands for. -/
def ofWire? : Int → Option ActuatorKind
  | 1 => some vibrate
  | 2 => some rotate
  | 3 => some linear
  | 4 => some rawWrite
  | _ => none

end ActuatorKind

namespace SensorKind

/-- The number that a kind is sent as. -/
def toWire : SensorKind → Int
  | battery => 1
  | rssi => 2
  | pressure => 3
  | button => 4
  | undeclared _ => 0

/-- The kind that a number is read as. A number that stands for no kind is read as a battery. -/
def ofWire : Int → SensorKind
  | 2 => rssi
  | 3 => pressure
  | 4 => button
  | _ => battery

end SensorKind

namespace ErrorCode

/-- The number that a code is sent as. The tens tell violations, device errors, transport errors
and the ends of sessions apart. -/
def toWire : ErrorCode → Int
  | ok => 0
  | handshakeRequired => 1
  | versionMismatch => 2
  | duplicateMessageId => 3
  | unexpectedMessage => 4
  | invalidMessageId => 5
  | unknownDevice => 10
  | deviceNotConnected => 11
  | invalidActuatorIndex => 12
  | outOfRange => 13
  | unsupportedDevice => 14
  | unsupportedCommand => 15
  | unrecognizedMessage => 16
  | transportError => 20
  | pingTimeout => 30
  | cancelled => 31
  | undeclared _ => 16

/-- The code that a number is read as. -/
def ofWire : Int → ErrorCode
  | 0 => ok
  | 1 => handshakeRequired
  | 2 => versionMismatch
  | 3 => duplicateMessageId
  | 4 => unexpectedMessage
  | 5 => invalidMessageId
  | 10 => unknownDevice
  | 11 => deviceNotConnected
  | 12 => invalidActuatorIndex
  | 13 => outOfRange
  | 14 => unsupportedDevice
  | 15 => unsupportedCommand
  | 20 => transportError
  | 30 => pingTimeout
  | 31 => cancelled
  | _ => unrecognizedMessage

end ErrorCode

end Haptics
