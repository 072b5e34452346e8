/-!
# Vendors

The device families a server speaks to. Each has a protocol of its own.
-/

namespace Haptics

inductive Vendor
  /-- Text commands for vibrators, rotators and a battery gauge. -/
  | lovense
  /-- Three-byte frames for a rotator. -/
  | vorze
  /-- Two-byte frames for a linear stroker. -/
  | launch
  /-- Two-byte frames for any number of vibrators. -/
  | genericVibrator
deriving DecidableEq, Repr

namespace Vendor

/-- The name of the protocol. -/
def name : Vendor → String
  | lovense => "lovense"
  | vorze => "vorze"
  | launch => "launch"
  | genericVibrator => "generic-vibrator"

/-- The devices of the family, as messages speak of them. -/
def devices : Vendor → String
  | lovense => "Lovense devices"
  | vorze => "Vorze devices"
  | launch => "Launch devices"
  | genericVibrator => "Generic vibrators"

def all : List Vendor := [lovense, vorze, launch, genericVibrator]

/-- The vendor whose protocol has a name. -/
def ofName? (name : String) : Option Vendor :=
  all.find? fun v => v.name = name

end Vendor

end Haptics
