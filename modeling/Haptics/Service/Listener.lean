import Haptics.Config.Basic
/-!
# Listeners

Where a server waits for clients: an address in the dotted form, which has to be one of its own
machine or of many machines, and a port.
-/

namespace Haptics

/-- An address of four numbers. -/
structure Address where
  octets : UInt8 × UInt8 × UInt8 × UInt8
deriving DecidableEq, Repr

namespace Address

/-- The number below 256 that digits give. Only the number zero begins with a zero. -/
def octetOf? (digits : List Char) : Option UInt8 :=
  if digits.isEmpty || 3 < digits.length || !digits.all Char.isDigit then none
  else if digits.head? = some '0' && 1 < digits.length then none
  else
    let n := digits.foldl (fun n c => 10 * n + (c.toNat - '0'.toNat)) 0
    if n < 256 then some (UInt8.ofNat n) else none

/-- The parts between dots. -/
def parts : List Char → List (List Char)
  | [] => [[]]
  | c :: rest =>
    if c = '.' then [] :: parts rest
    else
      match parts rest with
      | first :: others => (c :: first) :: others
      | [] => [[c]]

/-- Reads an address. -/
def ofText? (text : String) : Option Address :=
  match (parts text.toList).map octetOf? with
  | [some a, some b, some c, some d] => some ⟨a, b, c, d⟩
  | _ => none

/-- Whether one can listen on an address: on the loop back to the machine itself, on all its
interfaces, or on an address of many machines at once. -/
def usable (a : Address) : Bool :=
  a.octets.1 = 127 || a.octets = (0, 0, 0, 0) ||
    (224 ≤ a.octets.1 && a.octets.1 ≤ 239) || a.octets = (255, 255, 255, 255)

end Address

/-- Why a listener does not start. -/
inductive ListenerFault
  | badAddress (text : String)
  | foreignAddress (text : String) (port : UInt16)
deriving DecidableEq, Repr

def ListenerFault.message : ListenerFault → String
  | badAddress text => "Invalid bind address: " ++ text
  | foreignAddress text port =>
    "bind/listen on " ++ text ++ ":" ++ toString port ++ " failed: Cannot assign requested address"

structure Listener where
  terms : ListenerTerms
  running : Bool := false
  /-- Whether it has a port. A port is kept when the listener stops. -/
  bound : Bool := false
  /-- Why the last start failed. -/
  fault : Option ListenerFault := none
deriving DecidableEq, Repr

namespace Listener

/-- Why a listener cannot start, if it cannot. -/
def obstacle? (terms : ListenerTerms) : Option ListenerFault :=
  match Address.ofText? terms.address with
  | none => some (.badAddress terms.address)
  | some a => if a.usable then none else some (.foreignAddress terms.address terms.port)

/-- Starts a listener, and gives whether it runs. -/
def start (l : Listener) : Bool × Listener :=
  if l.running then (true, l)
  else
    match obstacle? l.terms with
    | some e => (false, { l with fault := some e })
    | none => (true, { l with running := true, bound := true })

def stop (l : Listener) : Listener := { l with running := false }

end Listener

end Haptics
