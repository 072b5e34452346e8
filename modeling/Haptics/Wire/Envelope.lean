import Haptics.Device.Command
/-!
# Envelopes

What travels between clients and the server, in the terms of the wire: kinds and codes are numbers,
a part that may be missing is optional, and what is not given is zero or empty. Any number can stand
where a kind or a code is expected.
-/

namespace Haptics

namespace Wire

structure Actuator where
  kind : Int := 0
  index : UInt32 := 0
  min : Binary64 := .zero
  max : Binary64 := .zero
  stepCount : UInt32 := 0
  endpoint : String := ""
deriving DecidableEq, Repr

structure Sensor where
  kind : Int := 0
  index : UInt32 := 0
  min : Binary64 := .zero
  max : Binary64 := .zero
  endpoint : String := ""
deriving DecidableEq, Repr

structure Device where
  index : UInt32 := 0
  name : String := ""
  actuators : List Actuator := []
  sensors : List Sensor := []
deriving DecidableEq, Repr

structure Reading where
  kind : Int := 0
  index : UInt32 := 0
  value : Binary64 := .zero
deriving DecidableEq, Repr

structure Setting where
  index : UInt32 := 0
  value : Binary64 := .zero
  clockwise : Bool := false
  durationMs : UInt32 := 0
deriving DecidableEq, Repr

inductive Command
  | actuator (kind : Int) (settings : List Setting)
  | rawWrite (index : UInt32) (data : Bytes) (withResponse : Bool)
  | sensorRead (index : UInt32)
  | stop
deriving DecidableEq, Repr

/-- What an envelope holds. -/
inductive Body
  | handshakeRequest (clientName : String) (minVersion maxVersion : UInt32)
  | handshakeReply (serverName : String) (version maxPingTimeMs : UInt32)
  | ping
  | deviceListRequest
  | deviceListReply (devices : List Device)
  | deviceAdded (device : Option Device)
  | deviceRemoved (device : UInt32)
  | deviceCommand (device : UInt32) (command : Option Command)
  | commandResult (device : UInt32)
  | sensorReading (device : UInt32) (readings : List Reading)
  | stopAllRequest
  | ok
  | error (code : Int) (message : String)
deriving DecidableEq, Repr

/-- The member of an envelope that holds the body. -/
def Body.member : Body → String
  | handshakeRequest .. => "handshake_request"
  | handshakeReply .. => "handshake_reply"
  | ping => "ping"
  | deviceListRequest => "device_list_request"
  | deviceListReply _ => "device_list_reply"
  | deviceAdded _ => "device_added"
  | deviceRemoved _ => "device_removed"
  | deviceCommand .. => "device_command"
  | commandResult _ => "command_result"
  | sensorReading .. => "sensor_reading"
  | stopAllRequest => "stop_all_request"
  | ok => "ok"
  | error .. => "error"

structure Envelope where
  id : UInt32 := 0
  body : Option Body := none
deriving DecidableEq, Repr

/-- An envelope is emptied before it is filled again. -/
def Envelope.clear (_ : Envelope) : Envelope := {}

end Wire

end Haptics
