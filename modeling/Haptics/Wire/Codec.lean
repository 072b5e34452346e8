import Haptics.Session.Message
import Haptics.Wire.Envelope
import Haptics.Wire.Number
/-!
# Messages in envelopes

How a message is put into an envelope and read from one. A message that the reader does not
recognize has no body; the converse holds too, and a command that is missing or of no known kind
makes its whole message unrecognized.
-/

namespace Haptics

/-! ## Putting -/

def Actuator.toWire (a : Actuator) : Wire.Actuator :=
  { kind := a.kind.toWire, index := a.index, min := a.range.min, max := a.range.max,
    stepCount := a.stepCount, endpoint := a.endpoint }

def Sensor.toWire (s : Sensor) : Wire.Sensor :=
  { kind := s.kind.toWire, index := s.index, min := s.range.min, max := s.range.max,
    endpoint := s.endpoint }

def DeviceEntry.toWire (e : DeviceEntry) : Wire.Device :=
  { index := e.device, name := e.name,
    actuators := e.capabilities.actuators.map Actuator.toWire,
    sensors := e.capabilities.sensors.map Sensor.toWire }

def Reading.toWire (r : Reading) : Wire.Reading :=
  { kind := r.kind.toWire, index := r.index, value := r.value }

def Setting.toWire (s : Setting) : Wire.Setting :=
  { index := s.index, value := s.value, clockwise := s.clockwise, durationMs := s.durationMs }

/-- In an envelope a setting stands for what is put there. -/
instance : Coe Setting Wire.Setting := ⟨Setting.toWire⟩

def Command.toWire : Command → Wire.Command
  | actuate kind settings => .actuator kind.toWire (settings.map Setting.toWire)
  | rawWrite index data withResponse => .rawWrite index data withResponse
  | readSensor index => .sensorRead index
  | stop => .stop

/-- The body of a message. -/
def Payload.toWire? : Payload → Option Wire.Body
  | handshakeRequest clientName minVersion maxVersion =>
    some (.handshakeRequest clientName minVersion maxVersion)
  | handshakeReply serverName version maxPingTimeMs =>
    some (.handshakeReply serverName version maxPingTimeMs)
  | ping => some .ping
  | deviceListRequest => some .deviceListRequest
  | deviceListReply devices => some (.deviceListReply (devices.map DeviceEntry.toWire))
  | deviceAdded device => some (.deviceAdded (some device.toWire))
  | deviceRemoved device => some (.deviceRemoved device)
  | deviceCommand device command => some (.deviceCommand device (some command.toWire))
  | commandResult device => some (.commandResult device)
  | sensorReading device readings => some (.sensorReading device (readings.map Reading.toWire))
  | stopAllRequest => some .stopAllRequest
  | ok => some .ok
  | error code message => some (.error code.toWire message)
  | unrecognized => none

/-- Puts a message into an envelope. -/
def Message.fill (m : Message) (e : Wire.Envelope) : Wire.Envelope :=
  { e.clear with id := m.id, body := m.payload.toWire? }

/-! ## Reading -/

namespace Wire

/-- An actuator of no known kind is read as one that takes raw writes. -/
def Actuator.read (a : Actuator) : Haptics.Actuator :=
  { kind := (ActuatorKind.ofWire? a.kind).getD .rawWrite, index := a.index,
    range := { min := a.min, max := a.max }, stepCount := a.stepCount, endpoint := a.endpoint }

def Sensor.read (s : Sensor) : Haptics.Sensor :=
  { kind := .ofWire s.kind, index := s.index, range := { min := s.min, max := s.max },
    endpoint := s.endpoint }

def Device.read (d : Device) : DeviceEntry :=
  { device := d.index, name := d.name,
    capabilities := { actuators := d.actuators.map Actuator.read,
                      sensors := d.sensors.map Sensor.read } }

def Reading.read (r : Reading) : Haptics.Reading :=
  { kind := .ofWire r.kind, index := r.index, value := r.value }

def Setting.read (s : Setting) : Haptics.Setting :=
  { index := s.index, value := s.value, clockwise := s.clockwise, durationMs := s.durationMs }

/-- Settings are read one by one. -/
instance : Coe (List Setting) (List Haptics.Setting) := ⟨List.map Setting.read⟩

/-- The command, unless its kind is unknown. -/
def Command.read? : Command → Option Haptics.Command
  | actuator kind settings => (ActuatorKind.ofWire? kind).map fun k => .actuate k settings
  | rawWrite index data withResponse => some (.rawWrite index data withResponse)
  | sensorRead index => some (.readSensor index)
  | stop => some .stop

def Body.read : Body → Payload
  | handshakeRequest clientName minVersion maxVersion =>
    .handshakeRequest clientName minVersion maxVersion
  | handshakeReply serverName version maxPingTimeMs =>
    .handshakeReply serverName version maxPingTimeMs
  | ping => .ping
  | deviceListRequest => .deviceListRequest
  | deviceListReply devices => .deviceListReply (devices.map Device.read)
  | deviceAdded device => .deviceAdded (device.getD {}).read
  | deviceRemoved device => .deviceRemoved device
  | deviceCommand device command =>
    match command.bind Command.read? with
    | some c => .deviceCommand device c
    | none => .unrecognized
  | commandResult device => .commandResult device
  | sensorReading device readings => .sensorReading device (readings.map Reading.read)
  | stopAllRequest => .stopAllRequest
  | ok => .ok
  | error code message => .error (.ofWire code) message

/-- The message in an envelope. -/
def Envelope.read (e : Envelope) : Message :=
  { id := e.id, payload := (e.body.map Body.read).getD .unrecognized }

end Wire

end Haptics
