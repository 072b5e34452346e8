import Haptics.Session.Basic
/-!
# Conversations

How a session answers the messages of its client. Before the handshake only the handshake is
welcome: the highest version that lies in both ranges is agreed on. Afterwards every message is a
sign of life, and requests are answered at once or queued. `receive` is two steps, since the session
may be closed by others between them: whether messages are still taken, and the answer.
-/

namespace Haptics

/-- What a client asks for. -/
inductive Request
  /-- Answered at once. -/
  | deviceList
  /-- Left to the worker. -/
  | task (t : Task)
deriving DecidableEq, Repr

/-- The request in a message, if the message is one. -/
def Payload.request? : Payload → Option Request
  | deviceListRequest => some .deviceList
  | deviceCommand device c => some (.task (.command device c))
  | stopAllRequest => some (.task .stopAll)
  | _ => none

/-- The entry of a device in a device list. -/
def DeviceInfo.entry (i : DeviceInfo) : DeviceEntry :=
  { device := UInt32.ofNat i.index, name := i.identity.name, capabilities := i.capabilities }

/-- The connected devices, as a client is told of them. -/
def Fleet.entries {L : Type} (f : Fleet L) : List DeviceEntry := f.list.map DeviceInfo.entry

/-- Enters a number into an increasing list, once. -/
def enterOnce (n : UInt32) : List UInt32 → List UInt32
  | [] => [n]
  | m :: rest =>
    if n < m then n :: m :: rest
    else if n = m then m :: rest
    else m :: enterOnce n rest

namespace Session

/-- Whether messages are still taken. -/
def open? (s : Session) : Bool := s.phase ≠ .closed && !s.pingClaimed

/-- Answers the first message of a client. -/
def greet (s : Session) (m : Message) (now : Time) : Reaction :=
  match m.payload with
  | .handshakeRequest clientName minVersion maxVersion =>
    if m.id = 0 then s.violate m.id .handshakeWithoutId
    else
      let low := max minVersion s.terms.minVersion
      let high := min maxVersion s.terms.maxVersion
      if maxVersion < minVersion ∨ high < low then
        s.violate m.id
          (.versionMismatch minVersion maxVersion s.terms.minVersion s.terms.maxVersion)
      else
        let s := { s with phase := .ready, version := high, clientName, lastActivity := now }
        { alive := true, session := s,
          outputs := s.send
            ⟨m.id, .handshakeReply s.terms.serverName high s.terms.maxPingTimeMs⟩ }
  | p => s.violate m.id (.handshakeRequired p.kindName)

/-- Takes a request whose id is free. -/
def accept (s : Session) (id : UInt32) (entries : List DeviceEntry) : Request → Reaction
  | .deviceList =>
    let s : Session := { s with outstanding := s.outstanding ++ [id] }
    let (s, outputs) := s.reply id (.deviceListReply entries)
    { alive := true, session := s, outputs }
  | .task t =>
    let commanded :=
      match t with
      | .command device _ => enterOnce device s.commanded
      | .stopAll => s.commanded
    { alive := true,
      session := { s with outstanding := s.outstanding ++ [id], commanded,
                          work := s.work ++ [{ id, task := t }] } }

/-- Answers a message of a client that is past the handshake. -/
def serve (s : Session) (m : Message) (now : Time) (entries : List DeviceEntry) : Reaction :=
  let s := { s with lastActivity := now }
  match m.payload with
  | .ping => { alive := true, session := s }
  | .unrecognized =>
    { alive := true, session := s,
      outputs := s.send ⟨m.id, .error .unrecognizedMessage "Unrecognized message kind"⟩ }
  | .handshakeRequest .. => s.violate m.id .handshakeRepeated
  | p =>
    match p.request? with
    | none => s.violate m.id (.notARequest p.kindName)
    | some r =>
      if m.id = 0 then s.violate m.id (.requestWithoutId p.kindName)
      else if m.id ∈ s.outstanding then s.violate m.id (.duplicateId m.id)
      else s.accept m.id entries r

/-- Answers a message in the phase that was read before. -/
def answer (s : Session) (phase : Phase) (m : Message) (now : Time)
    (entries : List DeviceEntry) : Reaction :=
  match phase with
  | .awaitingHandshake => s.greet m now
  | _ => s.serve m now entries

/-- Takes a message of the client. -/
def receive (s : Session) (m : Message) (now : Time) (entries : List DeviceEntry) : Reaction :=
  if s.open? then s.answer s.phase m now entries else { alive := false, session := s }

end Session

end Haptics
