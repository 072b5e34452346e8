import Haptics.Server.Basic
import Haptics.Session.Worker
/-!
# Work

The workers of the sessions, and what they wait for. A write on a held link stalls the worker and
keeps its device engaged, so that other workers wait there too; everything else goes on.
`Server.settle` runs whatever can run.
-/

namespace Haptics

/-- The device that the next step of the worker acts on. -/
def Session.nextDevice? (s : Session) : Option Nat :=
  match s.stage with
  | .cleared ⟨_, .command device _⟩ => some device.toNat
  | .sweeping _ sweep | .restopping _ _ sweep => sweep.targets.head?
  | _ => none

/-- Whether the next step of the worker sends a reply. -/
def Session.replies (s : Session) : Bool :=
  match s.stage with
  | .settled .. => true
  | _ => false

namespace Server

variable {L : Type} [Link L]

/-- Whether a trace has a write on a held link. -/
def writesHeld (s : Server L) (trace : List Happening) : Bool :=
  trace.any fun
    | .traffic link (.wrote ..) => s.heldLinks.contains link
    | _ => false

/-- Whether the worker of another session is stalled at a device. -/
def engaged (s : Server L) (name : String) (device : Nat) : Bool :=
  s.stalled.entries.any fun e => e.1 ≠ name && e.2 = device

/-- One step of the worker of a session, unless it has to wait. -/
def workTurn (name : String) (s : Server L) : Server L :=
  match s.seats.get? name with
  | none => s
  | some seat =>
    match seat.session.workStep s.fleet with
    | none => s
    | some turn =>
      let s' := ({ s with stalled := s.stalled.erase name } : Server L).commit seat turn
      match seat.session.nextDevice? with
      | some device =>
        if s.engaged name device then s
        else if s.writesHeld turn.trace then { s with stalled := s.stalled.insert name device }
        else s'
      | none => if seat.session.replies && seat.channel.stuck.isSome then s else s'

/-- An upper bound on the steps of a worker until it is idle or waits. -/
def workBound (s : Server L) (name : String) : Nat :=
  match s.seats.get? name with
  | none => 0
  | some seat => (seat.session.work.length + 1) * (2 * s.fleet.devices.length + 8)

/-- Runs the worker of a session until it is idle or has to wait. -/
def work (s : Server L) (name : String) : Server L :=
  (s.workBound name).repeat (workTurn name) s

/-- Runs all workers. Those that were stalled longest come first. -/
def workAll (s : Server L) : Server L :=
  (s.stalled.entries.map Prod.fst ++ s.seats.entries.map Prod.fst).foldl work s

/-- Ends the threads of work and forwarding of a session, and its subscription. -/
def join (s : Server L) (name : String) : Server L :=
  match s.seats.get? name with
  | none => s
  | some seat =>
    let (session, emitter) := seat.session.join s.emitter
    ({ s with emitter } : Server L).enter seat session []

/-- Whether a session is closed and has nothing left to do. -/
def Seat.finished (seat : Seat) : Bool :=
  seat.session.phase = .closed && seat.session.stage = .idle && seat.channel.stuck.isNone

/-- Joins the sessions that are closed and have nothing left to do. -/
def joinFinished (s : Server L) : Server L :=
  s.seats.entries.foldl (fun s e => if Seat.finished e.2 then s.join e.1 else s) s

/-- Does whatever is left to do: scan events are applied, the workers run, events are forwarded, and
closed sessions are joined. -/
def settle (s : Server L) : Server L := s.listenAll.discover.workAll.joinFinished

end Server

end Haptics
