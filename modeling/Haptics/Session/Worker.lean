import Haptics.Fleet.Dispatch
import Haptics.Session.Silence
/-!
# Workers

The worker of a session takes its tasks one by one, so that waiting for a device never keeps the
session from listening. It is a machine of small steps, between which others may act: it takes a
task, checks that the session still wants it, runs it on the fleet, and replies. A task that was
running when the client's silence was claimed is followed by one more safety stop, so that the stop
is the last the devices hear.
-/

namespace Haptics

/-- What a client is told of a command that was run. -/
def Command.result (c : Command) (device : UInt32) : Except Fault (List Reading) → Payload
  | .error e => .error e.code e.message
  | .ok readings =>
    match c with
    | .readSensor _ => .sensorReading device readings
    | _ => .commandResult device

/-- What a client is told of a sweep that it asked for. -/
def StopReport.result (r : StopReport) : Payload :=
  match r.failures with
  | [] => .ok
  | first :: _ =>
    .error first.fault.code
      ("Stop failed on " ++ toString r.failures.length ++ " of " ++ toString r.attempted ++
        " devices")

namespace Session

variable {L : Type} [Link L]

/-- Moves the worker to another stage. -/
def atStage (s : Session) (f : Fleet L) (stage : Stage) : Turn L :=
  { session := { s with stage }, fleet := f }

/-- Stops the next device of a sweep. -/
def sweepOn (s : Session) (f : Fleet L) (sweep : Sweep) (index : Nat) (rest : List Nat)
    (stage : Sweep → Stage) : Turn L :=
  let out := f.stopOne sweep.report index
  { session := { s with stage := stage { report := out.answer, targets := rest } },
    fleet := out.fleet, trace := out.trace }

/-- The next step of the worker, if there is one. -/
def workStep (s : Session) (f : Fleet L) : Option (Turn L) :=
  match s.stage with
  | .idle =>
    if s.running then
      match s.work with
      | [] => none
      | w :: rest => some ({ s with work := rest }.atStage f (.taken w))
    else none
  | .taken w =>
    if s.phase = .ready ∧ s.pingClaimed = false then some (s.atStage f (.cleared w))
    else some (s.atStage f .idle)
  | .cleared w =>
    match w.task with
    | .command device c =>
      let out := f.dispatch device.toNat c
      some { session := { s with stage := .executed w (c.result device out.answer) },
             fleet := out.fleet, trace := out.trace }
    | .stopAll => some (s.atStage f (.sweeping w { targets := f.connectedIndices }))
  | .sweeping w sweep =>
    match sweep.targets with
    | [] => some (s.atStage f (.executed w sweep.report.result))
    | index :: rest => some (s.sweepOn f sweep index rest (.sweeping w))
  | .executed w result =>
    if s.pingClaimed then
      some (s.atStage f (.restopping w result { targets := s.stopTargets f }))
    else some (s.atStage f (.settled w result))
  | .restopping w result sweep =>
    match sweep.targets with
    | [] => some (s.atStage f (.settled w result))
    | index :: rest => some (s.sweepOn f sweep index rest (.restopping w result))
  | .settled w result =>
    let (s, outputs) := s.reply w.id result
    some { session := { s with stage := .idle }, fleet := f, outputs }

end Session

end Haptics
