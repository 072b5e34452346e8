import Haptics.Fleet.Basic
/-!
# Registration

Devices enter a fleet when a scanner finds them and leave it when the scanner loses them. An
identity that is connected is not registered again. Registration is two steps, since others may act
between them: a look-up, and after the choice of a protocol a second look-up with the entry.
-/

namespace Haptics

/-- What came of a registration. -/
inductive Registration
  /-- The identity is connected already. -/
  | present (index : Nat)
  | created (index : Nat)
  | refused (fault : Fault)
deriving DecidableEq, Repr

namespace Fleet

variable {L : Type} [Link L]

/-- The protocol and the link for a device that was found. -/
def prepare (f : Fleet L) (i : Identity) (services : List String) (link : Option LinkId) :
    Except Fault (Protocol × LinkId) :=
  match link with
  | none => .error (.noLink i.name)
  | some id =>
    match f.rulebook.create i.name services with
    | .error e => .error e
    | .ok protocol => .ok (protocol, id)

/-- Enters a device, unless its identity was connected in the meantime. -/
def enter (f : Fleet L) (i : Identity) (protocol : Protocol) (link : LinkId) :
    Outcome L Registration :=
  match f.find? i with
  | some index => { answer := .present index, fleet := f }
  | none =>
    let index := f.devices.length
    let d : Device := { index, identity := i, protocol, link := some link }
    { answer := .created index,
      fleet := { f with devices := f.devices ++ [d], byKey := f.byKey.insert i.key index },
      trace := [.emitted (.added index i.name protocol.capabilities)] }

/-- Registers a device that was found. -/
def register (f : Fleet L) (i : Identity) (services : List String) (link : Option LinkId) :
    Outcome L Registration :=
  match f.find? i with
  | some index => { answer := .present index, fleet := f }
  | none =>
    match f.prepare i services link with
    | .error e => { answer := .refused e, fleet := f }
    | .ok (protocol, id) => f.enter i protocol id

/-- Removes the connected device with an identity, if there is one. -/
def unregister (f : Fleet L) (i : Identity) : Outcome L Bool :=
  match f.find? i with
  | none => { answer := false, fleet := f }
  | some index =>
    match f.devices[index]? with
    | none => { answer := false, fleet := f }
    | some d =>
      if d.connected then
        let out := f.remove index d
        { answer := true, fleet := out.fleet, trace := out.trace }
      else { answer := false, fleet := f }

/-- Disconnects devices one after the other. -/
def disconnectEach (f : Fleet L) : List Nat → Outcome L Unit
  | [] => { answer := (), fleet := f }
  | index :: rest =>
    match f.devices[index]? with
    | none => f.disconnectEach rest
    | some d =>
      let x := d.disconnect f.links
      let later := (f.absorb index x).disconnectEach rest
      { later with trace := happenings d.link x.traffic ++ later.trace }

/-- Disconnects every device. No event says so. -/
def disconnectAll (f : Fleet L) : Outcome L Unit :=
  ({ f with byKey := {} } : Fleet L).disconnectEach (List.range f.devices.length)

end Fleet

end Haptics
