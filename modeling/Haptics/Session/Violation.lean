import Haptics.ErrorCode
/-!
# Violations

What a client must not do in a session. A violation is answered by an error and closes the session
under the code of that error.
-/

namespace Haptics

inductive Violation
  /-- Something else came before the handshake. -/
  | handshakeRequired (kindName : String)
  /-- The handshake has the id that nothing replies to. -/
  | handshakeWithoutId
  /-- No version is in both ranges. -/
  | versionMismatch (clientMin clientMax serverMin serverMax : UInt32)
  /-- A second handshake. -/
  | handshakeRepeated
  /-- A message that is not a client's to send. -/
  | notARequest (kindName : String)
  /-- A request has the id that nothing replies to. -/
  | requestWithoutId (kindName : String)
  /-- The id of a request that has no reply yet is used again. -/
  | duplicateId (id : UInt32)
deriving DecidableEq, Repr

namespace Violation

def code : Violation → ErrorCode
  | handshakeRequired _ => .handshakeRequired
  | handshakeWithoutId | requestWithoutId _ => .invalidMessageId
  | versionMismatch .. => .versionMismatch
  | handshakeRepeated | notARequest _ => .unexpectedMessage
  | duplicateId _ => .duplicateMessageId

def message : Violation → String
  | handshakeRequired kindName => "Handshake required before " ++ kindName
  | handshakeWithoutId => "HandshakeRequest must carry a non-zero id"
  | versionMismatch clientMin clientMax serverMin serverMax =>
    "Client versions [" ++ toString clientMin ++ ", " ++ toString clientMax ++
      "] do not overlap server versions [" ++ toString serverMin ++ ", " ++ toString serverMax ++
      "]"
  | handshakeRepeated => "Handshake already completed"
  | notARequest kindName => kindName ++ " is not a client request"
  | requestWithoutId kindName => kindName ++ " must carry a non-zero id"
  | duplicateId id => "Message id " ++ toString id ++ " is already outstanding"

end Violation

end Haptics
