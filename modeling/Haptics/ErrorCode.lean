/-!
# Error codes

The codes under which a server reports a failure to a client, and the category that decides what
becomes of the session. A code that a peer sent and that no constant names keeps its number, and is
equal to itself only.
-/

namespace Haptics

/-- The reason of a failure, as a client sees it. -/
inductive ErrorCode
  | ok
  | handshakeRequired
  | versionMismatch
  | duplicateMessageId
  | unexpectedMessage
  | invalidMessageId
  | unknownDevice
  | deviceNotConnected
  | invalidActuatorIndex
  | outOfRange
  | unsupportedDevice
  | unsupportedCommand
  | unrecognizedMessage
  | transportError
  | pingTimeout
  | cancelled
  | undeclared (number : Int)
deriving DecidableEq, Repr

/-- What a failure means for the session it occurs in. -/
inductive ErrorCategory
  | none
  | protocolViolation
  | deviceError
  | transportError
  | safetyTimeout
deriving DecidableEq, Repr

def ErrorCategory.name : ErrorCategory → String
  | none => "NONE"
  | protocolViolation => "PROTOCOL_VIOLATION"
  | deviceError => "DEVICE_ERROR"
  | transportError => "TRANSPORT_ERROR"
  | safetyTimeout => "SAFETY_TIMEOUT"

namespace ErrorCode

/-- The declared codes, in the order of their numbers. -/
def declared : List ErrorCode :=
  [ok, handshakeRequired, versionMismatch, duplicateMessageId, unexpectedMessage, invalidMessageId,
    unknownDevice, deviceNotConnected, invalidActuatorIndex, outOfRange, unsupportedDevice,
    unsupportedCommand, unrecognizedMessage, transportError, pingTimeout, cancelled]

/-- The code with a number. -/
def ofNumber (n : Int) : ErrorCode :=
  if n < 0 then undeclared n else (declared[n.toNat]?).getD (undeclared n)

def name : ErrorCode → String
  | ok => "Ok"
  | handshakeRequired => "HandshakeRequired"
  | versionMismatch => "VersionMismatch"
  | duplicateMessageId => "DuplicateMessageId"
  | unexpectedMessage => "UnexpectedMessage"
  | invalidMessageId => "InvalidMessageId"
  | unknownDevice => "UnknownDevice"
  | deviceNotConnected => "DeviceNotConnected"
  | invalidActuatorIndex => "InvalidActuatorIndex"
  | outOfRange => "OutOfRange"
  | unsupportedDevice => "UnsupportedDevice"
  | unsupportedCommand => "UnsupportedCommand"
  | unrecognizedMessage => "UnrecognizedMessage"
  | transportError => "TransportError"
  | pingTimeout => "PingTimeout"
  | cancelled => "Cancelled"
  | undeclared _ => "Unknown"

/-- Violations close the session; errors of devices and of their links do not. -/
def category : ErrorCode → ErrorCategory
  | ok => .none
  | handshakeRequired | versionMismatch | duplicateMessageId | unexpectedMessage
  | invalidMessageId => .protocolViolation
  | transportError => .transportError
  | pingTimeout => .safetyTimeout
  | _ => .deviceError

end ErrorCode

end Haptics
