import Haptics.Protocol.Target
/-!
# Lovense

Text commands that end in a semicolon, written to `tx`; replies arrive on `rx`. A model with one
motor takes `Vibrate:N;` and a model with more takes `VibrateK:N;` for its K-th, while the plain
form stops them all. A rotator keeps its direction until `RotateChange;` turns it round. The reply
to `Battery;` is a percentage and a semicolon, which `percentage?` reads.
-/

namespace Haptics

namespace Lovense

def writeEndpoint : String := "tx"

def replyEndpoint : String := "rx"

def stepCount : UInt32 := 20

/-- One text command. -/
inductive Frame
  /-- Sets every motor. -/
  | vibrateAll (level : Nat)
  /-- Sets one motor, counted from 1. -/
  | vibrate (motor level : Nat)
  | rotate (level : Nat)
  /-- Turns the direction of the rotator round. -/
  | rotateChange
  | battery
deriving DecidableEq, Repr

namespace Frame

/-- The bytes of a frame. -/
def bytes : Frame → Bytes
  | vibrateAll level =>
    Bytes.ofAscii ['V', 'i', 'b', 'r', 'a', 't', 'e', ':'] ++ Bytes.ofNat level ++
      Bytes.ofAscii [';']
  | vibrate motor level =>
    Bytes.ofAscii ['V', 'i', 'b', 'r', 'a', 't', 'e'] ++ Bytes.ofNat motor ++
      Bytes.ofAscii [':'] ++ Bytes.ofNat level ++ Bytes.ofAscii [';']
  | rotate level =>
    Bytes.ofAscii ['R', 'o', 't', 'a', 't', 'e', ':'] ++ Bytes.ofNat level ++ Bytes.ofAscii [';']
  | rotateChange =>
    Bytes.ofAscii ['R', 'o', 't', 'a', 't', 'e', 'C', 'h', 'a', 'n', 'g', 'e', ';']
  | battery => Bytes.ofAscii ['B', 'a', 't', 't', 'e', 'r', 'y', ';']

def toWrite (f : Frame) : Write := { endpoint := writeEndpoint, data := f.bytes }

end Frame

/-- The vibrators of a device, in the order of its capabilities. -/
def motors (c : Capabilities) : List Actuator :=
  c.actuators.filter fun a => a.kind = .vibrate

/-- The number of a motor, counted from 1. An index that is no motor's has the number of the
last. -/
def motorNumber (c : Capabilities) (index : UInt32) : Nat :=
  match (motors c).findIdx? fun a => a.index = index with
  | some i => i + 1
  | none => (motors c).length

/-- The frames for one target, of a rotator that turns clockwise or not. -/
def framesFor (c : Capabilities) (clockwise : Bool) (kind : ActuatorKind) (t : Target) :
    Except Fault (List Frame) :=
  match kind with
  | .vibrate =>
    if 1 < (motors c).length then .ok [.vibrate (motorNumber c t.index) t.step.toNat]
    else .ok [.vibrateAll t.step.toNat]
  | .rotate =>
    if t.setting.clockwise ≠ clockwise then .ok [.rotateChange, .rotate t.step.toNat]
    else .ok [.rotate t.step.toNat]
  | _ => .error (.unsupportedKind .lovense kind)

/-- The frames for all targets of a command. -/
def encode (c : Capabilities) (clockwise : Bool) (kind : ActuatorKind) :
    List Target → Except Fault (List Frame)
  | [] => .ok []
  | t :: rest =>
    match framesFor c clockwise kind t with
    | .error e => .error e
    | .ok frames =>
      match encode c clockwise kind rest with
      | .error e => .error e
      | .ok more => .ok (frames ++ more)

/-- The frames that stop a device: one for all motors and one for the rotator. -/
def stopFrames (c : Capabilities) : List Frame :=
  (if 0 < c.count .vibrate then [.vibrateAll 0] else []) ++
    (if 0 < c.count .rotate then [.rotate 0] else [])

/-- The direction after a completed write. -/
def directionAfter (clockwise : Bool) (w : Write) : Bool :=
  if w.data = Frame.rotateChange.bytes then !clockwise else clockwise

/-! ## Battery replies -/

/-- The digit that an ASCII byte stands for. -/
def digit? (b : UInt8) : Option Nat :=
  if 48 ≤ b ∧ b ≤ 57 then some (b.toNat - 48) else none

/-- The value of a run of digits, on top of the digits before it. -/
def digitsValue : Nat → Bytes → Option Nat
  | acc, [] => some acc
  | acc, b :: rest => (digit? b).bind fun d => digitsValue (10 * acc + d) rest

/-- Reads one to three digits and a final semicolon as a percentage of at most 100. -/
def percentage? (data : Bytes) : Option Nat :=
  if data.getLast? = some 59 then
    let digits := data.dropLast
    if digits = [] ∨ 3 < digits.length then none
    else (digitsValue 0 digits).filter (· ≤ 100)
  else none

/-- The readings in a notification: the charge of the first battery, as a part of 1. -/
def interpret (c : Capabilities) (data : Bytes) : List Reading :=
  match percentage? data, c.sensors.find? fun s => s.kind = .battery with
  | some p, some s => [{ kind := .battery, index := s.index, value := .ofNat p / .ofNat 100 }]
  | _, _ => []

end Lovense

end Haptics
