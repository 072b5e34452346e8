import Haptics.Fleet.Basic
/-!
# Dispatch

Commands reach a device by its index, notifications by its identity. A device whose link failed and
is out of reach is removed.
-/

namespace Haptics

namespace Fleet

variable {L : Type} [Link L]

/-- Runs a command on the device with an index. Sensor reads give readings. -/
def dispatch (f : Fleet L) (index : Nat) (c : Command) :
    Outcome L (Except Fault (List Reading)) :=
  match f.devices[index]? with
  | none => { answer := .error (.unknownDevice index), fleet := f }
  | some d =>
    if !d.connected then { answer := .error (.noLongerConnected index), fleet := f }
    else
      let x := d.execute f.links c
      let f := f.absorb index x
      let trace := happenings d.link x.traffic
      match x.answer with
      | .ok readings => { answer := .ok readings, fleet := f, trace }
      | .error e =>
        if e.code = .transportError ∧ ¬ x.device.reachable f.links then
          let out := f.remove index x.device
          { answer := .error e, fleet := out.fleet, trace := trace ++ out.trace }
        else { answer := .error e, fleet := f, trace }

/-- Takes the bytes that a connected device sent, and reports the readings in them. -/
def notify (f : Fleet L) (i : Identity) (data : Bytes) : Outcome L Bool :=
  match f.find? i with
  | none => { answer := false, fleet := f }
  | some index =>
    match f.devices[index]? with
    | none => { answer := false, fleet := f }
    | some d =>
      if !d.connected then { answer := false, fleet := f }
      else
        match d.interpret data with
        | [] => { answer := true, fleet := f }
        | readings =>
          { answer := true, fleet := f, trace := [.emitted (.reading index readings)] }

end Fleet

end Haptics
