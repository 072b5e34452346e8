import Haptics.Fleet.Basic
import Haptics.Link.Simulated
import Haptics.Scan.Queue
/-!
# Simulations

A scanner of devices that exist in its configuration only. Each scan announces all of them, over
simulated links that last until they are disconnected or their device is lost. What the scanner
notices is reported to a queue, which may refuse it.
-/

namespace Haptics

structure SimulatedScanner where
  devices : List SimulatedDevice
  /-- Whether the scanner has a queue to report to. -/
  connected : Bool := false
  scanning : Bool := false
  /-- The links of the announced devices, by address. -/
  live : Table String LinkId := {}
  /-- Why the last scan did not start. -/
  error : String := ""
deriving DecidableEq, Repr

/-- The kind of link that simulated devices are found on. -/
def SimulatedScanner.kind : String := "sim"

/-- The identity a simulated device is announced under. -/
def SimulatedDevice.identity (d : SimulatedDevice) : Identity :=
  { kind := SimulatedScanner.kind, address := d.address, name := d.name }

/-- The fleets that simulated devices are found for. -/
abbrev SimulatedFleet := Fleet SimulatedLink

/-- A scanner with the fleet that holds its links and the queue for its reports. -/
structure Simulation where
  scanner : SimulatedScanner
  fleet : SimulatedFleet := {}
  queue : ScanQueue := {}

namespace Simulation

/-- The link that an address has. -/
def link? (x : Simulation) (address : String) : Option (LinkId × SimulatedLink) := do
  let id ← x.scanner.live.get? address
  return (id, ← x.fleet.links[id]?)

/-- Changes the link of an address. -/
def onLink (x : Simulation) (address : String) (change : SimulatedLink → SimulatedLink) :
    Simulation :=
  match x.link? address with
  | some (id, _) => { x with fleet := x.fleet.modifyLink id change }
  | none => x

/-- Reports an event, and gives whether the report was accepted. -/
def report (x : Simulation) (e : ScanEvent) : Bool × Simulation :=
  if x.scanner.connected then
    let (accepted, queue) := x.queue.push e
    (accepted, { x with queue })
  else (false, x)

/-- Announces a device. One whose address has no link, or one that is disconnected, gets a new
link. -/
def announce (x : Simulation) (d : SimulatedDevice) : Simulation :=
  let (id, x) : LinkId × Simulation :=
    match (x.link? d.address).filter fun l => !l.2.disconnected with
    | some (id, _) => (id, x)
    | none =>
      let (id, fleet) := x.fleet.addLink { device := d }
      let live := x.scanner.live.insert d.address id
      (id, { x with fleet, scanner := { x.scanner with live } })
  (x.report (.found d.identity d.services (some id))).2

/-- Starts a scan, and gives whether the scanner scans now. All devices are announced in order. -/
def start (x : Simulation) : Bool × Simulation :=
  if x.scanner.scanning then (true, x)
  else if !x.scanner.connected then
    (false, { x with scanner := { x.scanner with error := "No scan event queue set" } })
  else
    let x := { x with scanner := { x.scanner with scanning := true } }
    (true, x.scanner.devices.foldl announce x)

def stop (x : Simulation) : Simulation :=
  { x with scanner := { x.scanner with scanning := false } }

/-- Moves a device out of reach and reports it lost. An address without a link has no device. -/
def lose (x : Simulation) (address : String) : Bool × Simulation :=
  match x.link? address with
  | none => (false, x)
  | some (_, l) =>
    let x := x.onLink address fun l => { l with inReach := false }
    let x := { x with scanner := { x.scanner with live := x.scanner.live.erase address } }
    x.report (.lost l.device.identity)

/-- Lets a device send bytes, and gives whether that was reported. -/
def notify (x : Simulation) (address endpoint : String) (data : Bytes) : Bool × Simulation :=
  match x.link? address with
  | none => (false, x)
  | some (_, l) => x.report (.notification l.device.identity endpoint data)

end Simulation

end Haptics
