import Haptics.Fleet.Basic
/-!
# Stop sweeps

A sweep stops devices one after the other, in the order of their indices. It attempts every one of
them, whatever became of those before, and reports the failures. A device whose link failed and is
out of reach is removed.
-/

namespace Haptics

/-- A device that a sweep could not stop. -/
structure StopFailure where
  index : Nat
  name : String
  fault : Fault
deriving DecidableEq, Repr

structure StopReport where
  attempted : Nat := 0
  succeeded : Nat := 0
  failures : List StopFailure := []
deriving DecidableEq, Repr

def StopReport.allSucceeded (r : StopReport) : Bool := r.failures.isEmpty

namespace Fleet

variable {L : Type} [Link L]

/-- Stops one device of a sweep and adds to its report. A device that was removed since the sweep
began is passed over. -/
def stopOne (f : Fleet L) (r : StopReport) (index : Nat) : Outcome L StopReport :=
  match f.devices[index]? with
  | none => { answer := r, fleet := f }
  | some d =>
    if !d.connected then { answer := r, fleet := f }
    else
      let x := d.stop f.links
      let f := f.absorb index x
      let trace := happenings d.link x.traffic
      let r := { r with attempted := r.attempted + 1 }
      match x.answer with
      | none => { answer := { r with succeeded := r.succeeded + 1 }, fleet := f, trace }
      | some e =>
        let r := { r with failures := r.failures ++ [⟨index, d.identity.name, e⟩] }
        if e.code = .transportError ∧ ¬ x.device.reachable f.links then
          let out := f.remove index x.device
          { answer := r, fleet := out.fleet, trace := trace ++ out.trace }
        else { answer := r, fleet := f, trace }

/-- Stops devices one after the other, on top of a report. -/
def sweep (f : Fleet L) (r : StopReport) : List Nat → Outcome L StopReport
  | [] => { answer := r, fleet := f }
  | index :: rest =>
    let first := f.stopOne r index
    let later := first.fleet.sweep first.answer rest
    { later with trace := first.trace ++ later.trace }

/-- The connected devices among some indices, in order. -/
def among (f : Fleet L) (indices : List Nat) : List Nat :=
  f.connectedIndices.filter (· ∈ indices)

/-- Stops every connected device. -/
def stopAll (f : Fleet L) : Outcome L StopReport := f.sweep {} f.connectedIndices

/-- Stops the connected devices among some indices. -/
def stopDevices (f : Fleet L) (indices : List Nat) : Outcome L StopReport :=
  f.sweep {} (f.among indices)

end Fleet

end Haptics
