import Haptics.Session.Basic
/-!
# Silence

A client that has been silent for longer than its session's limit is taken to be gone. The silence
is claimed at most once, without touching a device; from then on the session takes no messages and
runs no further work. The safety stop and the close follow.
-/

namespace Haptics

namespace Session

/-- How long the client has been silent, in whole milliseconds. -/
def silentMs (s : Session) (now : Time) : Int := (now - s.lastActivity).tdiv 1000

/-- Whether the silence of the client is to be claimed. -/
def silent (s : Session) (now : Time) : Bool :=
  s.phase = .ready && s.terms.maxPingTimeMs ≠ 0 && !s.pingClaimed &&
    decide ((s.terms.maxPingTimeMs.toNat : Int) < s.silentMs now)

/-- Claims the silence of the client, if it is too long. -/
def claim (s : Session) (now : Time) : Bool × Session :=
  if s.silent now then (true, { s with pingClaimed := true }) else (false, s)

/-- The devices that a safety stop is for. -/
def stopTargets {L : Type} (s : Session) (f : Fleet L) : List Nat :=
  match s.terms.stopScope with
  | .global => f.connectedIndices
  | .session => f.among (s.commanded.map UInt32.toNat)

variable {L : Type} [Link L]

/-- Stops the devices in the scope of the session. -/
def safetyStop (s : Session) (f : Fleet L) : Outcome L StopReport :=
  f.sweep {} (s.stopTargets f)

/-- What a step that runs on the fleet leaves behind. -/
structure Turn (L : Type) where
  session : Session
  fleet : Fleet L
  outputs : List Output := []
  trace : List Happening := []

/-- Follows up a claimed silence: the safety stop, then the close. -/
def pingStop (s : Session) (f : Fleet L) : Turn L :=
  let out := s.safetyStop f
  let (session, outputs) := s.close .pingTimeout
  { session, fleet := out.fleet, outputs, trace := out.trace }

/-- Claims the silence of the client and follows it up. -/
def checkPing (s : Session) (f : Fleet L) (now : Time) : Bool × Turn L :=
  match s.claim now with
  | (true, s) => (true, s.pingStop f)
  | (false, s) => (false, { session := s, fleet := f })

end Session

end Haptics
