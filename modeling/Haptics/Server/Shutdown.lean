import Haptics.Server.Watch
/-!
# Shutting a server down

The order matters: first nobody gives commands any more, then what scanners have reported is
applied, so that no device is overlooked, then every device is stopped, and only then are the links
given up.
-/

namespace Haptics

namespace Server

variable {L : Type} [Link L]

/-- Closes every session. -/
def closeAll (s : Server L) (reason : ErrorCode) : Server L :=
  s.seats.entries.foldl (fun s e => s.close e.1 reason) s

/-- Shuts a server down. -/
def shutDown (s : Server L) : Server L :=
  let s := (s.closeAll .cancelled).settle
  let s := s.stopMonitor.closeScans.stopDiscovery
  let (_, s) := s.onFleet Fleet.stopAll
  let (_, s) := s.onFleet Fleet.disconnectAll
  s

end Server

end Haptics
