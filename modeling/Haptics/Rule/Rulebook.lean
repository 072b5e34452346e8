import Haptics.Device.Identity
import Haptics.Rule.Basic
/-!
# Rulebooks

The rules of a server in their order of precedence: the first rule that serves a device decides its
protocol. A server may allow raw writes, which gives every device one further actuator for each
endpoint of its rule.
-/

namespace Haptics

structure Rulebook where
  rules : List Rule := []
  allowRaw : Bool := false
deriving DecidableEq, Repr

namespace Rulebook

/-- The rules for known devices, the specific ones before the general one. -/
def builtinRules : List Rule :=
  let rule (vendor : Vendor) (pattern : String) (vibrators : UInt32) : Rule :=
    ((({} : Rule).revise { protocol := vendor.name, pattern, vibrators }).1)
  let nora := rule .lovense "LVS-Nora*" 1
  [rule .lovense "LVS-Edge*" 2,
    { nora with capabilities :=
        nora.capabilities.addActuators .rotate Lovense.stepCount Lovense.writeEndpoint 1 },
    rule .lovense "LVS-*" 1,
    rule .vorze "CycSA" 0,
    rule .launch "Launch" 0]

def builtin : Rulebook := { rules := builtinRules }

/-- Adds a rule that gives way to all others. -/
def addBack (b : Rulebook) (r : Rule) : Rulebook := { b with rules := b.rules ++ [r] }

/-- Adds a rule that comes before all others. -/
def addFront (b : Rulebook) (r : Rule) : Rulebook := { b with rules := r :: b.rules }

/-- The rule that decides the protocol of a device. -/
def match? (b : Rulebook) (name : String) (services : List String) : Option Rule :=
  b.rules.find? fun r => r.serves name services

/-- The capabilities of a device that a rule serves. -/
def capabilities (b : Rulebook) (r : Rule) : Capabilities :=
  if b.allowRaw then
    r.endpoints.foldl (fun c endpoint => c.addActuators .rawWrite 0 endpoint 1) r.capabilities
  else r.capabilities

/-- The protocol of a device. -/
def create (b : Rulebook) (name : String) (services : List String) : Except Fault Protocol :=
  match b.match? name services with
  | some r =>
    match r.vendor with
    | some v => .ok (Protocol.fresh v (b.capabilities r))
    | none => .error (.noProtocol name)
  | none => .error (.noProtocol name)

end Rulebook

end Haptics
