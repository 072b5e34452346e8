import Haptics.Device.Command
/-!
# Links

The connection to one device. A link takes writes and gives replies, or says in words why it did
not; it may be out of reach, and once disconnected it stays so. What is proved of devices and
fleets is proved for every type of link.
-/

namespace Haptics

/-- Operations of a link. Each gives the link as it is afterwards. -/
class Link (L : Type) where
  /-- Writes to the device, or says why the write was refused. -/
  write : L → Write → Except String Unit × L
  /-- Takes the next reply on an endpoint, or says why there is none. -/
  read : L → String → Except String Bytes × L
  /-- Whether the device can be reached. -/
  reachable : L → Bool
  /-- Gives the connection up. -/
  disconnect : L → L

/-- The place of a link among the links of a fleet. -/
abbrev LinkId := Nat

end Haptics
