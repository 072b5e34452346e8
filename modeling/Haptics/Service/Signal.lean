/-!
# Signals

What the operating system tells a running service. The requests to end are remembered until they are
reset; a broken pipe is no reason to end.
-/

namespace Haptics

inductive Signal
  | interrupt
  | terminate
  | brokenPipe
deriving DecidableEq, Repr

/-- Whether a signal asks the service to end. -/
def Signal.endsService : Signal → Bool
  | interrupt | terminate => true
  | brokenPipe => false

/-- Whether the service was asked to end. -/
structure ShutdownRequest where
  requested : Bool := false
deriving DecidableEq, Repr

namespace ShutdownRequest

/-- Takes note of a signal. -/
def raise (r : ShutdownRequest) (s : Signal) : ShutdownRequest :=
  { requested := r.requested || s.endsService }

def reset (_ : ShutdownRequest) : ShutdownRequest := {}

end ShutdownRequest

end Haptics
