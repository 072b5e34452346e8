import Haptics.Binary64.SixDigits
import Haptics.Device.Capability
import Haptics.ErrorCode
import Haptics.Protocol.Vendor
/-!
# Faults

Why a registration, a command or a stop failed. Every fault has the code it is reported under and
one wording, `message`.
-/

namespace Haptics

inductive Fault
  /-- A command names an actuator that the device does not have. -/
  | noActuator (index : UInt32) (vendor : Vendor)
  /-- A command reads a sensor that the device does not have. -/
  | noSensor (index : UInt32) (vendor : Vendor)
  /-- An actuator is not of the kind of the command. -/
  | wrongKind (index : UInt32) (actual requested : ActuatorKind)
  /-- A command sets one actuator twice. -/
  | givenTwice (index : UInt32)
  /-- A value is outside the range of its actuator. -/
  | valueOutside (value : Binary64) (range : ValueRange) (index : UInt32)
  /-- A raw write came as settings. -/
  | rawWriteAsSettings
  /-- A command sets nothing. -/
  | noSettings (kind : ActuatorKind)
  /-- A raw write names an actuator of another kind. -/
  | notRaw (index : UInt32)
  /-- A raw write carries no bytes. -/
  | emptyRawWrite
  /-- A sensor read cannot be put into writes. -/
  | readIsNoWrite
  /-- The vendor has no frame for the kind of the command. -/
  | unsupportedKind (vendor : Vendor) (kind : ActuatorKind)
  /-- The vendor has no request for the sensor. -/
  | sensorNotReadable (kind : SensorKind)
  /-- The device has no link to write to. -/
  | notConnected (index : Nat)
  /-- The device was registered once and has been removed. -/
  | noLongerConnected (index : Nat)
  /-- No device was ever registered under the index. -/
  | unknownDevice (index : Nat)
  /-- The link refused a write. -/
  | writeFailed (device endpoint reason : String)
  /-- The link refused the request of a sensor read. -/
  | requestFailed (device reason : String)
  /-- The link had no reply to a sensor read. -/
  | readFailed (device reason : String)
  /-- The reply to a sensor read holds no reading. -/
  | noReading (device : String)
  /-- A device was found without a link. -/
  | noLink (device : String)
  /-- No rule names a protocol for the device. -/
  | noProtocol (device : String)
deriving DecidableEq, Repr

namespace Fault

def code : Fault → ErrorCode
  | noActuator .. | noSensor .. => .invalidActuatorIndex
  | wrongKind .. | givenTwice _ | rawWriteAsSettings | noSettings _ | notRaw _ | readIsNoWrite
  | unsupportedKind .. | sensorNotReadable _ => .unsupportedCommand
  | valueOutside .. | emptyRawWrite => .outOfRange
  | notConnected _ | noLongerConnected _ => .deviceNotConnected
  | unknownDevice _ => .unknownDevice
  | writeFailed .. | requestFailed .. | readFailed .. | noReading _ | noLink _ => .transportError
  | noProtocol _ => .unsupportedDevice

def message : Fault → String
  | noActuator index vendor =>
    "Actuator index " ++ toString index ++ " not present on " ++ vendor.name ++ " device"
  | noSensor index vendor =>
    "Sensor index " ++ toString index ++ " not present on " ++ vendor.name ++ " device"
  | wrongKind index actual requested =>
    "Actuator " ++ toString index ++ " is " ++ actual.name ++ ", not " ++ requested.name
  | givenTwice index => "Actuator index " ++ toString index ++ " given twice"
  | valueOutside value range index =>
    "Value " ++ value.text ++ " outside range [" ++ range.min.text ++ ", " ++ range.max.text ++
      "] for actuator " ++ toString index
  | rawWriteAsSettings => "RawWrite must be sent as a raw write command"
  | noSettings kind => kind.name ++ " command has no settings"
  | notRaw index => "Actuator " ++ toString index ++ " does not accept raw writes"
  | emptyRawWrite => "Raw write carries no data"
  | readIsNoWrite => "Sensor reads are not write commands"
  | unsupportedKind vendor kind => vendor.devices ++ " do not support " ++ kind.name
  | sensorNotReadable kind => kind.name ++ " sensor cannot be read on demand"
  | notConnected index => "Device " ++ toString index ++ " is not connected"
  | noLongerConnected index => "Device " ++ toString index ++ " is no longer connected"
  | unknownDevice index => "Unknown device index " ++ toString index
  | writeFailed device endpoint reason =>
    "Write to " ++ device ++ " endpoint '" ++ endpoint ++ "' failed: " ++ reason
  | requestFailed device reason => "Sensor request to " ++ device ++ " failed: " ++ reason
  | readFailed device reason => "Sensor read from " ++ device ++ " failed: " ++ reason
  | noReading device => "Sensor reply from " ++ device ++ " carried no reading"
  | noLink device => "Device '" ++ device ++ "' found without a transport handle"
  | noProtocol device => "No protocol matches device '" ++ device ++ "'"

end Fault

end Haptics
