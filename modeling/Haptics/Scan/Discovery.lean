import Haptics.Fleet.Dispatch
import Haptics.Fleet.Registration
import Haptics.Scan.Queue
/-!
# Discovery

How the events of scanners change a fleet, one after the other in the order they were accepted.
-/

namespace Haptics

/-- The progress of the discovery that applies the queued events. -/
structure Discovery where
  running : Bool := false
  /-- The number of events applied. -/
  processed : Nat := 0
deriving DecidableEq, Repr

namespace Fleet

variable {L : Type} [Link L]

/-- Applies a scan event to a fleet. -/
def discover (f : Fleet L) : ScanEvent → Outcome L Unit
  | .found identity services link =>
    let out := f.register identity services link
    { answer := (), fleet := out.fleet, trace := out.trace }
  | .lost identity =>
    let out := f.unregister identity
    { answer := (), fleet := out.fleet, trace := out.trace }
  | .notification identity _ data =>
    let out := f.notify identity data
    { answer := (), fleet := out.fleet, trace := out.trace }

end Fleet

end Haptics
