/-!
# Device identities

How a scanner tells devices apart. The advertised name is not part of what identifies a device.
-/

namespace Haptics

structure Identity where
  /-- The kind of link the device was found on. -/
  kind : String
  address : String
  /-- The advertised name. -/
  name : String
deriving DecidableEq, Repr

/-- The key of a device: two identities with one key are the same device. -/
def Identity.key (i : Identity) : String := i.kind ++ "/" ++ i.address

end Haptics
