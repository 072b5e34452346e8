import Haptics.Binary64.Arithmetic
import Haptics.Binary64.Rounding
import Haptics.Device.Command
import Haptics.Device.Fault
/-!
# Targets

A setting together with the actuator it names. `locate` finds the actuators of a command and
refuses the command at its first bad setting, so that encoders meet only settings of the right kind
whose values are in range; `Actuator.step` places such a value on the hardware scale of its
actuator.
-/

namespace Haptics

/-- The step nearest to a value on the hardware scale of the actuator, a half going up. An actuator
without steps or without an extent has the step 0 only. -/
def Actuator.step (a : Actuator) (value : Binary64) : UInt32 :=
  let span := a.range.max - a.range.min
  if span.le .zero ∨ a.stepCount = 0 then 0
  else
    UInt32.ofInt
      ((value - a.range.min) / span * .ofNat a.stepCount.toNat).nearestInt64

/-- A setting and the actuator it names. -/
structure Target where
  setting : Setting
  actuator : Actuator
deriving DecidableEq, Repr

namespace Target

/-- The index under which a command names the actuator. -/
def index (t : Target) : UInt32 := t.setting.index

/-- The hardware step the actuator is to take. -/
def step (t : Target) : UInt32 := t.actuator.step t.setting.value

end Target

namespace Capabilities

/-- Finds the actuator of a setting. In this order the setting must name an actuator, of the
command's kind, that is not set already, with a value in its range. -/
def locateOne (c : Capabilities) (vendor : Vendor) (kind : ActuatorKind) (seen : List UInt32)
    (s : Setting) : Except Fault Target :=
  match c.findActuator? s.index with
  | none => .error (.noActuator s.index vendor)
  | some a =>
    if a.kind ≠ kind then .error (.wrongKind s.index a.kind kind)
    else if s.index ∈ seen then .error (.givenTwice s.index)
    else if a.range.contains s.value then .ok ⟨s, a⟩
    else .error (.valueOutside s.value a.range s.index)

/-- Finds the actuators of all settings, or the fault of the first bad one. -/
def locate (c : Capabilities) (vendor : Vendor) (kind : ActuatorKind) (seen : List UInt32) :
    List Setting → Except Fault (List Target)
  | [] => .ok []
  | s :: rest =>
    match c.locateOne vendor kind seen s with
    | .error e => .error e
    | .ok t =>
      match c.locate vendor kind (s.index :: seen) rest with
      | .error e => .error e
      | .ok ts => .ok (t :: ts)

/-- The targets of a whole command. Raw writes have a command of their own, and a command has to
set something. -/
def targets (c : Capabilities) (vendor : Vendor) (kind : ActuatorKind) (settings : List Setting) :
    Except Fault (List Target) :=
  if kind = .rawWrite then .error .rawWriteAsSettings
  else if settings = [] then .error (.noSettings kind)
  else c.locate vendor kind [] settings

end Capabilities

end Haptics
