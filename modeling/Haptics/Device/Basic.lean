import Haptics.Device.Identity
import Haptics.Device.Line
/-!
# Devices

A registered device: its identity, its protocol and the place of its link. The links themselves are
kept apart, in a list, since their owner may look at them too; an operation on a device gives the
device, the links and the traffic afterwards. A device that is disconnected gives its link up for
good.
-/

namespace Haptics

structure Device where
  index : Nat
  identity : Identity
  protocol : Protocol
  connected : Bool := true
  link : Option LinkId
deriving DecidableEq, Repr

/-- What an operation on a device leaves behind. -/
structure Exchange (L α : Type) where
  answer : α
  device : Device
  links : List L
  traffic : List Traffic := []

namespace Device

variable {L α : Type} [Link L]

/-- Runs something on the line of a device, which is there while the device is connected. -/
def onLine (d : Device) (links : List L) (absent : α) (act : Line L → α × Line L) :
    Exchange L α :=
  match d.connected, d.link with
  | true, some id =>
    match links[id]? with
    | some link =>
      let (answer, line) := act { protocol := d.protocol, link }
      { answer, device := { d with protocol := line.protocol }, links := links.set id line.link,
        traffic := line.traffic }
    | none => { answer := absent, device := d, links }
  | _, _ => { answer := absent, device := d, links }

/-- Runs a command on a device. -/
def execute (d : Device) (links : List L) (c : Command) :
    Exchange L (Except Fault (List Reading)) :=
  d.onLine links (.error (.notConnected d.index)) fun line => line.execute d.identity.name c

/-- Stops a device and gives the first fault. -/
def stop (d : Device) (links : List L) : Exchange L (Option Fault) :=
  d.onLine links (some (.notConnected d.index)) fun line => line.stop d.identity.name

/-- The readings in the bytes that a device sent. -/
def interpret (d : Device) (data : Bytes) : List Reading := d.protocol.interpret data

/-- Whether the link of a device reaches it. A device without a link is out of reach. -/
def reachable (d : Device) (links : List L) : Bool :=
  match d.link with
  | some id => (links[id]?).any Link.reachable
  | none => false

/-- Disconnects a device and gives its link up. -/
def disconnect (d : Device) (links : List L) : Exchange L Unit :=
  let device := { d with connected := false, link := none }
  match d.link with
  | some id =>
    { answer := (), device, links := links.modify id Link.disconnect, traffic := [.disconnected] }
  | none => { answer := (), device, links }

end Device

end Haptics
