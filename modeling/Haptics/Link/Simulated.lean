import Haptics.Binary64.Arithmetic
import Haptics.Binary64.Rounding
import Haptics.Link.Basic
import Haptics.Table
/-!
# Simulated links

A link without a device behind it. It records what is written, answers battery queries if it was
given a charge, and has replies put into it. Writes may be made to fail all together or by a script
of single attempts; a script may also move the device out of reach.
-/

namespace Haptics

/-- A device that a simulated scanner announces. -/
structure SimulatedDevice where
  name : String := ""
  address : String := ""
  services : List String := []
  /-- The charge, as a part of 1. -/
  battery : Option Binary64 := none
deriving DecidableEq, Repr

structure SimulatedLink where
  device : SimulatedDevice
  inReach : Bool := true
  failing : Bool := false
  disconnected : Bool := false
  /-- Why the last refused write or read was refused, a scripted failure apart. -/
  refusal : String := ""
  /-- Whether the last attempt failed by the script. -/
  failedByScript : Bool := false
  /-- The writes accepted, oldest first. -/
  writes : List Write := []
  /-- The replies waiting on each endpoint, oldest first. -/
  replies : Table String (List Bytes) := {}
  /-- The number of write attempts so far. -/
  attempts : Nat := 0
  /-- The attempts that the script makes fail, counted over the life of the link. -/
  failAt : List Nat := []
  /-- The attempts at which the script moves the device out of reach. -/
  dropAt : List Nat := []
deriving DecidableEq, Repr

namespace SimulatedLink

/-- Why the last attempt was refused. -/
def lastError (l : SimulatedLink) : String :=
  if l.failedByScript then "scripted failure" else l.refusal

/-- Whether the device can be reached. -/
def reachable (l : SimulatedLink) : Bool := l.inReach && !l.disconnected

def disconnect (l : SimulatedLink) : SimulatedLink := { l with disconnected := true }

/-- Puts a reply behind those already waiting on an endpoint. -/
def pushReply (l : SimulatedLink) (endpoint : String) (data : Bytes) : SimulatedLink :=
  { l with replies := l.replies.insert endpoint ((l.replies.get? endpoint).getD [] ++ [data]) }

/-- Adds attempts to the script, counted from the next one as 1. -/
def script (l : SimulatedLink) (fail drop : List Nat) : SimulatedLink :=
  { l with failAt := l.failAt ++ fail.map (l.attempts + ·),
           dropAt := l.dropAt ++ drop.map (l.attempts + ·) }

def clearWrites (l : SimulatedLink) : SimulatedLink := { l with writes := [] }

private def refuse (l : SimulatedLink) (why : String) : Except String Unit × SimulatedLink :=
  (.error why, { l with refusal := why })

/-- The bytes that ask for the charge. -/
def batteryQuery : Bytes := Bytes.ofAscii ['B', 'a', 't', 't', 'e', 'r', 'y', ';']

/-- The reply to a battery query: the charge in whole percent and a semicolon. -/
def batteryReply (charge : Binary64) : Bytes :=
  let percent := (charge * .ofNat 100).nearestInt64
  (if percent < 0 then Bytes.ofAscii ['-'] else []) ++ Bytes.ofNat percent.natAbs ++
    Bytes.ofAscii [';']

/-- Accepts a write, unless the link is disconnected, out of reach or failing. -/
def accept (l : SimulatedLink) (w : Write) : Except String Unit × SimulatedLink :=
  if l.disconnected then l.refuse "transport disconnected"
  else if !l.inReach then l.refuse (l.device.address ++ " out of range")
  else if l.failing then l.refuse "simulated write failure"
  else
    let l := { l with writes := l.writes ++ [w] }
    match l.device.battery with
    | some charge =>
      (.ok (), if w.data = batteryQuery then l.pushReply "rx" (batteryReply charge) else l)
    | none => (.ok (), l)

/-- One write attempt: what the script says of it comes first. -/
def write (l : SimulatedLink) (w : Write) : Except String Unit × SimulatedLink :=
  let attempt := l.attempts + 1
  let l := { l with attempts := attempt, failedByScript := false }
  if attempt ∈ l.failAt then (.error "scripted failure", { l with failedByScript := true })
  else accept { l with inReach := l.inReach && attempt ∉ l.dropAt } w

/-- Takes the oldest reply waiting on an endpoint. -/
def read (l : SimulatedLink) (endpoint : String) : Except String Bytes × SimulatedLink :=
  let l := { l with failedByScript := false }
  let refuse (why : String) : Except String Bytes × SimulatedLink :=
    (.error why, { l with refusal := why })
  if l.disconnected then refuse "transport disconnected"
  else
    match (l.replies.get? endpoint).getD [] with
    | [] => refuse ("no reply on '" ++ endpoint ++ "'")
    | data :: rest => (.ok data, { l with replies := l.replies.insert endpoint rest })

instance : Link SimulatedLink where
  write := write
  read := read
  reachable := reachable
  disconnect := disconnect

end SimulatedLink

end Haptics
