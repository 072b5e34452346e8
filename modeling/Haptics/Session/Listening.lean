import Haptics.Session.Basic
/-!
# Listening

A running session forwards the events of the fleet to its client, as messages with id 0. Events that
come while the session is not ready are passed over. A session whose queue has overflowed is closed:
its client would miss events without knowing.
-/

namespace Haptics

/-- The message that tells a client of an event. -/
def DeviceEvent.message : DeviceEvent → Message
  | added device name capabilities =>
    { payload := .deviceAdded { device := UInt32.ofNat device, name, capabilities } }
  | removed device _ => { payload := .deviceRemoved (UInt32.ofNat device) }
  | reading device readings => { payload := .sensorReading (UInt32.ofNat device) readings }

namespace Session

/-- Subscribes to events and starts the worker. A session that is closed or runs already stays as
it is. -/
def start (s : Session) (emitter : Option Emitter) : Session × Option Emitter :=
  if s.phase = .closed ∨ s.running then (s, emitter)
  else
    match emitter with
    | none => ({ s with running := true }, none)
    | some m =>
      let (subscription, m) := m.subscribe {} s.terms.eventQueueSize
      ({ s with running := true, subscription }, some m)

/-- Stops the worker and the forwarding, and ends the subscription. -/
def join (s : Session) (emitter : Option Emitter) : Session × Option Emitter :=
  ({ s with running := false, subscription := none },
    match s.subscription with
    | some id => emitter.map (·.unsubscribe id)
    | none => emitter)

/-- The message for an event, if the session is ready for it. -/
def forward (s : Session) (e : Event) : List Output :=
  if s.phase = .ready then s.send e.body.message else []

/-- One turn of the forwarding: a session whose queue has overflowed closes, any other forwards the
oldest event that waits. -/
def listen (s : Session) (m : Emitter) : Session × Emitter × List Output :=
  match s.subscription with
  | none => (s, m, [])
  | some id =>
    if !s.running then (s, m, [])
    else if (m.queue? id).any (·.overflowed) then
      let (s, outputs) := s.close .cancelled
      (s, m, outputs)
    else
      match m.pop id with
      | (none, m) => (s, m, [])
      | (some e, m) => (s, m, s.forward e)

end Session

end Haptics
