import Haptics.Binary64
/-!
# Capabilities

What a device can do: its actuators and its sensors, each with an index that commands name it by
and a range of values. Capabilities are fixed while a device is registered.
-/

namespace Haptics

/-- What an actuator does. A number that names no kind is kept as it is. -/
inductive ActuatorKind
  | vibrate
  | rotate
  | linear
  | rawWrite
  | undeclared (number : Int)
deriving DecidableEq, Repr

/-- What a sensor measures. A number that names no kind is kept as it is. -/
inductive SensorKind
  | battery
  | rssi
  | pressure
  | button
  | undeclared (number : Int)
deriving DecidableEq, Repr

namespace ActuatorKind

/-- The declared kinds, in the order of their numbers. -/
def declared : List ActuatorKind := [vibrate, rotate, linear, rawWrite]

/-- The kind with a number. -/
def ofNumber (n : Int) : ActuatorKind :=
  if n < 0 then undeclared n else (declared[n.toNat]?).getD (undeclared n)

def name : ActuatorKind → String
  | vibrate => "Vibrate"
  | rotate => "Rotate"
  | linear => "Linear"
  | rawWrite => "RawWrite"
  | undeclared _ => "Unknown"

end ActuatorKind

namespace SensorKind

/-- The declared kinds, in the order of their numbers. -/
def declared : List SensorKind := [battery, rssi, pressure, button]

/-- The kind with a number. -/
def ofNumber (n : Int) : SensorKind :=
  if n < 0 then undeclared n else (declared[n.toNat]?).getD (undeclared n)

def name : SensorKind → String
  | battery => "Battery"
  | rssi => "Rssi"
  | pressure => "Pressure"
  | button => "Button"
  | undeclared _ => "Unknown"

end SensorKind

/-- A closed interval of values. -/
structure ValueRange where
  min : Binary64 := .zero
  max : Binary64 := .one
deriving DecidableEq, Repr

/-- Whether a value lies in a range, its ends included. NaN lies in none. -/
def ValueRange.contains (r : ValueRange) (v : Binary64) : Bool :=
  r.min.le v && v.le r.max

structure Actuator where
  kind : ActuatorKind := .vibrate
  index : UInt32 := 0
  range : ValueRange := {}
  stepCount : UInt32 := 0
  endpoint : String := ""
deriving DecidableEq, Repr

structure Sensor where
  kind : SensorKind := .battery
  index : UInt32 := 0
  range : ValueRange := {}
  endpoint : String := ""
deriving DecidableEq, Repr

structure Capabilities where
  actuators : List Actuator := []
  sensors : List Sensor := []
deriving DecidableEq, Repr

namespace Capabilities

/-- The first actuator with an index. -/
def findActuator? (c : Capabilities) (index : UInt32) : Option Actuator :=
  c.actuators.find? fun a => a.index = index

/-- The first sensor with an index. -/
def findSensor? (c : Capabilities) (index : UInt32) : Option Sensor :=
  c.sensors.find? fun s => s.index = index

/-- The number of actuators of a kind. -/
def count (c : Capabilities) (kind : ActuatorKind) : Nat :=
  c.actuators.countP fun a => a.kind = kind

/-- Appends actuators of one kind. The index of each is its position in the list. -/
def addActuators (c : Capabilities) (kind : ActuatorKind) (stepCount : UInt32)
    (endpoint : String) (number : Nat) : Capabilities :=
  { c with actuators := c.actuators ++ (List.range' c.actuators.length number).map fun i =>
      { kind, index := UInt32.ofNat i, stepCount, endpoint } }

end Capabilities

end Haptics
