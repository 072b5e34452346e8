import Haptics.Server.Conduct
/-!
# The watch over silent clients

The monitor looks after the sessions that were added to it. A look first drops those that are closed
or gone, then claims the silence of every other client before it follows any of them up, so that a
slow stop of one does not delay the others.
-/

namespace Haptics

namespace Server

variable {L : Type} [Link L]

/-- The seat with a number, if it is still there. -/
def seatNumbered? (s : Server L) (number : Nat) : Option Seat :=
  (s.seats.entries.map Prod.snd).find? fun seat => seat.number = number

/-- Adds a session to the monitor. -/
def watch (s : Server L) (name : String) : Server L :=
  match s.seats.get? name with
  | none => s
  | some seat => { s with monitor := { s.monitor with seats := s.monitor.seats ++ [seat.number] } }

/-- Drops the sessions that are closed or gone from the monitor. -/
def prune (s : Server L) : Server L :=
  let seats := s.monitor.seats.filter fun number =>
    (s.seatNumbered? number).any fun seat => seat.session.phase ≠ .closed
  { s with monitor := { s.monitor with seats } }

/-- Claims the silence of clients that have been silent too long, and gives their sessions. -/
def claimEach (s : Server L) : List Nat → List String × Server L
  | [] => ([], s)
  | number :: rest =>
    match s.seatNumbered? number with
    | none => s.claimEach rest
    | some seat =>
      let (claimed, s) := s.claimPing seat.session.name
      let (names, s) := s.claimEach rest
      (if claimed then seat.session.name :: names else names, s)

/-- One look of the monitor: gives the number of clients whose silence it claimed. -/
def tick (s : Server L) : Nat × Server L :=
  let s := s.prune
  let (names, s) := s.claimEach s.monitor.seats
  (names.length, names.foldl pingStop s)

def startMonitor (s : Server L) : Server L :=
  { s with monitor := { s.monitor with running := true } }

def stopMonitor (s : Server L) : Server L :=
  { s with monitor := { s.monitor with running := false } }

end Server

end Haptics
