import Haptics.Fleet.Basic
import Haptics.Session.Basic
/-!
# Seats

Where a session sits in a server: beside the session itself, the channel to its client and what the
owner of the session asked for. The journal tells in order what a server did.
-/

namespace Haptics

/-- The way from a session to its client. -/
structure Channel where
  /-- Whether messages are lost on it. -/
  broken : Bool := false
  /-- Whether the next event message gets stuck in it. -/
  held : Bool := false
  /-- The event message that is stuck in it. -/
  stuck : Option Message := none
deriving DecidableEq, Repr

structure Seat where
  /-- The number of the seat. A name may be given again, a number is not. -/
  number : Nat
  session : Session
  channel : Channel := {}
  /-- Whether the session may subscribe to events. -/
  listens : Bool := true
  /-- Whether the owner wants to hear of the close. -/
  notifies : Bool := true
deriving DecidableEq, Repr

/-- An entry of the journal. -/
inductive Note
  | happened (h : Happening)
  /-- A message reached the client of a session. -/
  | sent (session : String) (m : Message)
  /-- The owner of a session heard that it is closed. -/
  | closed (session : String) (reason : ErrorCode)
deriving DecidableEq, Repr

/-- What the outputs of a session come to, given its channel and its owner. -/
def Seat.notes (seat : Seat) (outputs : List Output) : List Note :=
  outputs.filterMap fun
    | .sent m => if seat.channel.broken then none else some (.sent seat.session.name m)
    | .closed reason => if seat.notifies then some (.closed seat.session.name reason) else none

end Haptics
