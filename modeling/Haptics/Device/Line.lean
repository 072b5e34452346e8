import Haptics.Link.Basic
import Haptics.Protocol.Basic
/-!
# Lines

A line is the protocol of a device together with its link, while one command runs on them. A
command stops at the first write that its link refuses. A stop attempts every one of its writes and
reports the first that was refused. After a refused write nobody knows what reached the device, so
the protocol forgets what it sent.
-/

namespace Haptics

/-- One exchange with a link. -/
inductive Traffic
  /-- A write was handed to the link, which accepted it or not. -/
  | wrote (write : Write) (accepted : Bool)
  /-- A reply was asked for, and there was one or not. -/
  | asked (endpoint : String) (answered : Bool)
  | disconnected
deriving DecidableEq, Repr

/-- A protocol and its link, with the exchanges of the command that runs on them. -/
structure Line (L : Type) where
  protocol : Protocol
  link : L
  traffic : List Traffic := []

namespace Line

variable {L : Type} [Link L]

/-- Hands one write to the link and takes note of what became of it. -/
def write (line : Line L) (device : String) (w : Write) : Option Fault × Line L :=
  match Link.write line.link w with
  | (.ok _, link) =>
    (none, { protocol := line.protocol.completed w, link,
             traffic := line.traffic ++ [.wrote w true] })
  | (.error why, link) =>
    (some (.writeFailed device w.endpoint why),
      { protocol := line.protocol.forget, link, traffic := line.traffic ++ [.wrote w false] })

/-- Hands writes to the link up to the first that is refused. -/
def writeAll (line : Line L) (device : String) : List Write → Option Fault × Line L
  | [] => (none, line)
  | w :: rest =>
    match line.write device w with
    | (some e, line) => (some e, line)
    | (none, line) => line.writeAll device rest

/-- Hands every write to the link and gives the fault of the first that was refused. -/
def writeEach (line : Line L) (device : String) : List Write → Option Fault × Line L
  | [] => (none, line)
  | w :: rest =>
    let (first, line) := line.write device w
    let (later, line) := line.writeEach device rest
    (first.or later, line)

/-- Asks for a reading and waits for the reply. -/
def readSensor (line : Line L) (device : String) (index : UInt32) :
    Except Fault (List Reading) × Line L :=
  match line.protocol.sensorRequest index with
  | .error e => (.error e, line)
  | .ok (request, endpoint) =>
    match Link.write line.link request with
    | (.error why, link) =>
      (.error (.requestFailed device why),
        { line with link, traffic := line.traffic ++ [.wrote request false] })
    | (.ok _, link) =>
      let line : Line L := { line with traffic := line.traffic ++ [.wrote request true] }
      match Link.read link endpoint with
      | (.error why, link) =>
        (.error (.readFailed device why),
          { line with link, traffic := line.traffic ++ [.asked endpoint false] })
      | (.ok data, link) =>
        let line : Line L := { line with link, traffic := line.traffic ++ [.asked endpoint true] }
        match line.protocol.interpret data with
        | [] => (.error (.noReading device), line)
        | readings => (.ok readings, line)

/-- Runs a command. Only sensor reads give readings. -/
def execute (line : Line L) (device : String) : Command → Except Fault (List Reading) × Line L
  | .readSensor index => line.readSensor device index
  | command =>
    match line.protocol.translate command with
    | .error e => (.error e, line)
    | .ok (writes, protocol) =>
      match ({ line with protocol } : Line L).writeAll device writes with
      | (some e, line) => (.error e, line)
      | (none, line) => (.ok [], line)

/-- Stops the device: every stop write is attempted. -/
def stop (line : Line L) (device : String) : Option Fault × Line L :=
  let (writes, protocol) := line.protocol.stop
  ({ line with protocol } : Line L).writeEach device writes

end Line

end Haptics
