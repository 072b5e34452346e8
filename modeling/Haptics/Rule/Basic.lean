import Haptics.Protocol.Basic
/-!
# Rules

A rule says which devices a protocol serves, by patterns of their advertised names and by the
services they have to advertise, and what such a device can do. `Rule.revise` writes the rule of a
vendor over an earlier one; a revision that fails may already have changed the names, the services
and the capabilities, and leaves the rest as it was.
-/

namespace Haptics

/-- Whether a name fits a pattern. A pattern that ends in a star fits the names that begin with
what stands before the star, any other pattern fits itself. -/
def nameMatches (pattern name : String) : Bool :=
  if pattern.toList.getLast? = some '*' then
    pattern.toList.dropLast.isPrefixOf name.toList
  else pattern == name

structure Rule where
  protocol : String := ""
  patterns : List String := []
  /-- The services that a device has to advertise. -/
  services : List String := []
  /-- The endpoints that raw writes go to. -/
  endpoints : List String := []
  capabilities : Capabilities := {}
  /-- The vendor whose protocol is built, if the rule names one. -/
  vendor : Option Vendor := none
deriving DecidableEq, Repr

/-- What a rule is made from. -/
structure RuleRequest where
  protocol : String := ""
  pattern : String := ""
  vibrators : UInt32 := 1
  services : List String := []
deriving DecidableEq, Repr

/-- Why a rule cannot be made. -/
inductive RuleFault
  | noPattern
  | noVibrator (vendor : Vendor) (pattern : String)
  | unknownProtocol (protocol : String)
deriving DecidableEq, Repr

def RuleFault.message : RuleFault → String
  | noPattern => "Protocol rule needs a name pattern"
  | noVibrator vendor pattern =>
    vendor.name ++ " rule '" ++ pattern ++ "' needs at least one vibrator"
  | unknownProtocol protocol => "Unknown protocol '" ++ protocol ++ "'"

namespace Rule

/-- Whether a rule serves a device with a name and advertised services. -/
def serves (r : Rule) (name : String) (services : List String) : Bool :=
  r.patterns.any (fun p => nameMatches p name) && r.services.all (fun s => services.contains s)

/-- The capabilities of a vendor's devices. The number of vibrators matters to the vendors of
vibrators only. -/
def capabilitiesOf (vendor : Vendor) (vibrators : Nat) : Capabilities :=
  match vendor with
  | .lovense =>
    { ({} : Capabilities).addActuators .vibrate Lovense.stepCount Lovense.writeEndpoint vibrators
      with sensors := [{ kind := .battery, index := 0, endpoint := Lovense.replyEndpoint }] }
  | .vorze => ({} : Capabilities).addActuators .rotate Vorze.stepCount Vorze.writeEndpoint 1
  | .launch => ({} : Capabilities).addActuators .linear Launch.stepCount Launch.writeEndpoint 1
  | .genericVibrator =>
    ({} : Capabilities).addActuators .vibrate GenericVibrator.stepCount
      GenericVibrator.writeEndpoint vibrators

/-- The endpoints of a vendor's devices that raw writes go to. -/
def endpointsOf : Vendor → List String
  | .lovense => [Lovense.writeEndpoint]
  | .vorze => [Vorze.writeEndpoint]
  | .launch => [Launch.writeEndpoint]
  | .genericVibrator => [GenericVibrator.writeEndpoint]

/-- Whether a vendor's devices are nothing without a vibrator. -/
def needsVibrator : Vendor → Bool
  | .lovense | .genericVibrator => true
  | .vorze | .launch => false

/-- Writes a request over a rule, and says why that failed if it did. Without a pattern the rule
stays as it is; after that the request's names and services count, whatever comes of it. -/
def revise (r : Rule) (q : RuleRequest) : Rule × Option RuleFault :=
  if q.pattern.isEmpty then (r, some .noPattern)
  else
    let named : Rule :=
      { r with protocol := q.protocol, patterns := [q.pattern], services := q.services,
               capabilities := {} }
    match Vendor.ofName? q.protocol with
    | none => (named, some (.unknownProtocol q.protocol))
    | some v =>
      if needsVibrator v && q.vibrators == 0 then (named, some (.noVibrator v q.pattern))
      else
        ({ named with endpoints := endpointsOf v,
                      capabilities := capabilitiesOf v q.vibrators.toNat,
                      vendor := some v }, none)

/-- The rule of a request. -/
def make (q : RuleRequest) : Except RuleFault Rule :=
  match ({} : Rule).revise q with
  | (r, none) => .ok r
  | (_, some e) => .error e

end Rule

end Haptics
