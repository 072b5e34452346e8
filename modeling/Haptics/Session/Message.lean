import Haptics.Device.Command
import Haptics.ErrorCode
/-!
# Messages

What a client and the server say to each other. A message carries an id: the reply to a request has
the id of the request, and id 0 belongs to messages that nothing replies to.
-/

namespace Haptics

/-- A device as a client is told of it. -/
structure DeviceEntry where
  device : UInt32 := 0
  name : String := ""
  capabilities : Capabilities := {}
deriving DecidableEq, Repr

/-- What a message says. -/
inductive Payload
  | handshakeRequest (clientName : String) (minVersion maxVersion : UInt32)
  | handshakeReply (serverName : String) (version maxPingTimeMs : UInt32)
  | ping
  | deviceListRequest
  | deviceListReply (devices : List DeviceEntry)
  | deviceAdded (device : DeviceEntry)
  | deviceRemoved (device : UInt32)
  | deviceCommand (device : UInt32) (command : Command)
  | commandResult (device : UInt32)
  | sensorReading (device : UInt32) (readings : List Reading)
  | stopAllRequest
  | ok
  | error (code : ErrorCode) (message : String)
  /-- A message of a kind that the receiver does not know. -/
  | unrecognized
deriving DecidableEq, Repr

namespace Payload

/-- The name of the kind of a message. -/
def kindName : Payload → String
  | handshakeRequest .. => "HandshakeRequest"
  | handshakeReply .. => "HandshakeReply"
  | ping => "Ping"
  | deviceListRequest => "DeviceListRequest"
  | deviceListReply _ => "DeviceListReply"
  | deviceAdded _ => "DeviceAdded"
  | deviceRemoved _ => "DeviceRemoved"
  | deviceCommand .. => "DeviceCommand"
  | commandResult _ => "CommandResult"
  | sensorReading .. => "SensorReading"
  | stopAllRequest => "StopAllRequest"
  | ok => "Ok"
  | error .. => "Error"
  | unrecognized => "Unrecognized"

/-- Whether a client may say it. -/
def fromClient : Payload → Bool
  | handshakeRequest .. | ping | deviceListRequest | deviceCommand .. | stopAllRequest => true
  | _ => false

end Payload

structure Message where
  id : UInt32 := 0
  payload : Payload
deriving DecidableEq, Repr

end Haptics
