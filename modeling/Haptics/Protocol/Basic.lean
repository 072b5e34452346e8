import Haptics.Protocol.GenericVibrator
import Haptics.Protocol.Launch
import Haptics.Protocol.Lovense
import Haptics.Protocol.Vorze
import Haptics.Table
/-!
# Protocols

A protocol turns the commands of clients into the raw writes of one vendor, for one device. Beside
the capabilities of the device it remembers what was last sent to each actuator, so that a setting
that changes nothing is not sent again, and what the vendor's frames depend on: the direction of a
rotator or the position of a stroker. What was last sent only spares writes; it is forgotten
whenever the state of the device is in doubt.
-/

namespace Haptics

/-- A vendor and what its frames depend on. -/
inductive Dialect
  /-- The direction of the rotator, as completed writes have left it. -/
  | lovense (clockwise : Bool)
  | vorze
  /-- The position that the last move leads to. -/
  | launch (position : UInt32)
  | genericVibrator
deriving DecidableEq, Repr

def Dialect.vendor : Dialect → Vendor
  | lovense _ => .lovense
  | vorze => .vorze
  | launch _ => .launch
  | genericVibrator => .genericVibrator

/-- The dialect of a device that nothing was sent to. -/
def Vendor.dialect : Vendor → Dialect
  | lovense => .lovense true
  | vorze => .vorze
  | launch => .launch 0
  | genericVibrator => .genericVibrator

/-- What was last sent to an actuator. -/
structure Sent where
  step : UInt32
  clockwise : Bool
deriving DecidableEq, Repr

structure Protocol where
  dialect : Dialect
  capabilities : Capabilities
  /-- What was last sent, by actuator index. -/
  sent : Table UInt32 Sent := {}
deriving DecidableEq, Repr

namespace Protocol

/-- The protocol of a device that nothing was sent to. -/
def fresh (vendor : Vendor) (capabilities : Capabilities) : Protocol :=
  { dialect := vendor.dialect, capabilities }

def vendor (p : Protocol) : Vendor := p.dialect.vendor

def name (p : Protocol) : String := p.vendor.name

/-- Forgets what was last sent, so that nothing is taken to be unchanged. -/
def forget (p : Protocol) : Protocol := { p with sent := {} }

/-! ## Settings -/

/-- What a target sends. Only rotators have a direction of their own. -/
def sentBy (kind : ActuatorKind) (t : Target) : Sent :=
  { step := t.step, clockwise := if kind = .rotate then t.setting.clockwise else true }

/-- Whether a target has to be sent. A linear move always has. -/
def changes (p : Protocol) (kind : ActuatorKind) (t : Target) : Bool :=
  kind = .linear || p.sent.get? t.index ≠ some (sentBy kind t)

/-- The writes of the vendor for the targets of a command, and the dialect after them. -/
def encode (p : Protocol) (kind : ActuatorKind) (ts : List Target) :
    Except Fault (List Write × Dialect) :=
  match p.dialect with
  | .lovense clockwise =>
    (Lovense.encode p.capabilities clockwise kind ts).map fun frames =>
      (frames.map Lovense.Frame.toWrite, p.dialect)
  | .vorze => (Vorze.encode kind ts).map fun frames => (frames.map Vorze.toWrite, p.dialect)
  | .launch position =>
    (Launch.encode position kind ts).map fun (frames, final) =>
      (frames.map Launch.toWrite, .launch final)
  | .genericVibrator =>
    (GenericVibrator.encode kind ts).map fun frames =>
      (frames.map GenericVibrator.toWrite, p.dialect)

/-- What is remembered as sent after the targets of a command. -/
def remember (p : Protocol) (kind : ActuatorKind) (ts : List Target) : Table UInt32 Sent :=
  if kind = .linear then p.sent
  else ts.foldl (fun sent t => sent.insert t.index (sentBy kind t)) p.sent

/-- The writes of an actuator command: those of the targets that change something. -/
def translateSettings (p : Protocol) (kind : ActuatorKind) (settings : List Setting) :
    Except Fault (List Write × Protocol) :=
  match p.capabilities.targets p.vendor kind settings with
  | .error e => .error e
  | .ok ts =>
    match ts.filter (p.changes kind) with
    | [] => .ok ([], p)
    | changed =>
      match p.encode kind changed with
      | .error e => .error e
      | .ok (writes, dialect) =>
        .ok (writes, { p with dialect, sent := p.remember kind changed })

/-! ## Raw writes and stops -/

/-- The write of a raw write command. It leaves the device in an unknown state. -/
def translateRaw (p : Protocol) (index : UInt32) (data : Bytes) (withResponse : Bool) :
    Except Fault (List Write × Protocol) :=
  match p.capabilities.findActuator? index with
  | none => .error (.noActuator index p.vendor)
  | some a =>
    if a.kind ≠ .rawWrite then .error (.notRaw index)
    else if data = [] then .error .emptyRawWrite
    else .ok ([{ endpoint := a.endpoint, data, withResponse }], p.forget)

/-- The writes that stop a device. -/
def stopFrames (p : Protocol) : List Write :=
  match p.dialect with
  | .lovense _ => (Lovense.stopFrames p.capabilities).map Lovense.Frame.toWrite
  | .vorze => [Vorze.toWrite Vorze.stopFrame]
  | .launch _ => []
  | .genericVibrator =>
    (GenericVibrator.stopFrames p.capabilities).map GenericVibrator.toWrite

/-- What is remembered as sent by a stop: every vibrator and every rotator at step 0. -/
def rememberStop (p : Protocol) : Table UInt32 Sent :=
  (p.capabilities.actuators.filter fun a => a.kind = .vibrate ∨ a.kind = .rotate).foldl
    (fun sent a => sent.insert a.index { step := 0, clockwise := true }) p.sent

/-- The writes that stop a device, whatever was last sent to it. -/
def stop (p : Protocol) : List Write × Protocol :=
  (p.stopFrames, { p with sent := p.rememberStop })

/-- The writes of a command. A command whose settings change nothing has none. -/
def translate (p : Protocol) : Command → Except Fault (List Write × Protocol)
  | .actuate kind settings => p.translateSettings kind settings
  | .rawWrite index data withResponse => p.translateRaw index data withResponse
  | .readSensor _ => .error .readIsNoWrite
  | .stop => .ok p.stop

/-- Takes note of a write that the link accepted. -/
def completed (p : Protocol) (w : Write) : Protocol :=
  match p.dialect with
  | .lovense clockwise => { p with dialect := .lovense (Lovense.directionAfter clockwise w) }
  | _ => p

/-! ## Sensors -/

/-- The readings in the bytes that a device sent. -/
def interpret (p : Protocol) (data : Bytes) : List Reading :=
  match p.dialect with
  | .lovense _ => Lovense.interpret p.capabilities data
  | _ => []

/-- The request of a sensor read, and the endpoint that the reply arrives on. -/
def sensorRequest (p : Protocol) (index : UInt32) : Except Fault (Write × String) :=
  match p.capabilities.findSensor? index with
  | none => .error (.noSensor index p.vendor)
  | some s =>
    match p.dialect with
    | .lovense _ =>
      if s.kind = .battery then .ok (Lovense.Frame.battery.toWrite, Lovense.replyEndpoint)
      else .error (.sensorNotReadable s.kind)
    | _ => .error (.sensorNotReadable s.kind)

end Protocol

end Haptics
