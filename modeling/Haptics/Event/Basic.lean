import Haptics.Device.Command
/-!
# Events

What happens to the devices of a fleet: a device is added, a device is removed, a device reports
readings. An emitted event carries a number that grows from event to event, and the time it was
emitted at.
-/

namespace Haptics

inductive DeviceEvent
  | added (device : Nat) (name : String) (capabilities : Capabilities)
  | removed (device : Nat) (name : String)
  /-- Readings that the device sent unasked. -/
  | reading (device : Nat) (readings : List Reading)
deriving DecidableEq, Repr

/-- The index of the device an event is about. -/
def DeviceEvent.device : DeviceEvent → Nat
  | added device .. | removed device _ | reading device _ => device

def DeviceEvent.isReading : DeviceEvent → Bool
  | reading .. => true
  | _ => false

structure Event where
  id : Nat := 0
  body : DeviceEvent
  timestampMs : Int := 0
deriving DecidableEq, Repr

/-- Which events a subscriber wants. -/
structure EventFilter where
  /-- The only device of interest, if there is one. -/
  device : Option Nat := none
  /-- Whether readings are wanted. -/
  readings : Bool := true
deriving DecidableEq, Repr

def EventFilter.wants (f : EventFilter) (e : DeviceEvent) : Bool :=
  f.device.all (· = e.device) && (f.readings || !e.isReading)

end Haptics
