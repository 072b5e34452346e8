import Haptics.Device.Basic
import Haptics.Event.Basic
import Haptics.Rule.Rulebook
/-!
# Fleets

The devices of a server. A device has the index it was registered under for good, also once it is
removed; the keys of the connected devices lead to their indices. The links of the devices are kept
in a list beside them. An operation on a fleet gives its answer, the fleet and what happened, in
order: the traffic on the links and the events emitted.

Indices are natural numbers here, counted up from 0, and 32 bits wide where clients are told of
them. The two agree as long as fewer than 2^32 devices have ever been registered. A fleet whose
indices would begin again is outside of what is said.
-/

namespace Haptics

/-- Something that an operation on a fleet did. -/
inductive Happening
  | traffic (link : LinkId) (t : Traffic)
  | emitted (event : DeviceEvent)
deriving DecidableEq, Repr

structure Fleet (L : Type) where
  rulebook : Rulebook := {}
  /-- Every device ever registered, at its index. -/
  devices : List Device := []
  /-- The indices of the connected devices, by key. -/
  byKey : Table String Nat := {}
  links : List L := []

/-- What an operation on a fleet leaves behind. -/
structure Outcome (L α : Type) where
  answer : α
  fleet : Fleet L
  trace : List Happening := []

/-- A device as it is shown to others. -/
structure DeviceInfo where
  index : Nat
  identity : Identity
  vendor : Vendor
  capabilities : Capabilities
  connected : Bool
deriving DecidableEq, Repr

def Device.info (d : Device) : DeviceInfo :=
  { index := d.index, identity := d.identity, vendor := d.protocol.vendor,
    capabilities := d.protocol.capabilities, connected := d.connected }

namespace Fleet

variable {L α : Type} [Link L]

/-- Adds a link and gives its place. -/
def addLink (f : Fleet L) (link : L) : LinkId × Fleet L :=
  (f.links.length, { f with links := f.links ++ [link] })

/-- Changes a link. -/
def modifyLink (f : Fleet L) (id : LinkId) (change : L → L) : Fleet L :=
  { f with links := f.links.modify id change }

/-- The index of the connected device with an identity. -/
def find? (f : Fleet L) (i : Identity) : Option Nat := f.byKey.get? i.key

/-- The connected devices, by index. -/
def list (f : Fleet L) : List DeviceInfo :=
  (f.devices.filter (·.connected)).map Device.info

/-- The device that was registered under an index. -/
def info? (f : Fleet L) (index : Nat) : Option DeviceInfo :=
  f.devices[index]?.map Device.info

/-- The indices of the connected devices, in order. -/
def connectedIndices (f : Fleet L) : List Nat :=
  (List.range f.devices.length).filter fun i => (f.devices[i]?).any (·.connected)

/-- The exchanges of a device as happenings on its link. -/
def happenings (link : Option LinkId) (traffic : List Traffic) : List Happening :=
  match link with
  | some id => traffic.map (.traffic id)
  | none => []

/-- Takes over what an operation on a device left behind. -/
def absorb (f : Fleet L) (index : Nat) (x : Exchange L α) : Fleet L :=
  { f with devices := f.devices.set index x.device, links := x.links }

/-- Removes a connected device: its key leads nowhere, its link is given up, and an event says
so. -/
def remove (f : Fleet L) (index : Nat) (d : Device) : Outcome L Unit :=
  let key := d.identity.key
  let byKey := if f.byKey.get? key = some index then f.byKey.erase key else f.byKey
  let x := d.disconnect f.links
  { answer := (), fleet := { f.absorb index x with byKey },
    trace := happenings d.link x.traffic ++ [.emitted (.removed index d.identity.name)] }

end Fleet

end Haptics
