/-!
# Binary64 numbers

A binary64 number is its 64 bits, so two numbers are equal exactly when their bits are, NaN and
both zeros included. `decode` reads the bits as a sign, a significand and an exponent, for the exact
texts, roundings and arithmetic built on it; the order needs the bits only, since the magnitudes of
numbers are ordered as their bits are.
-/

namespace Haptics

/-- A number in the IEEE 754 binary64 format, kept bit for bit. -/
structure Binary64 where
  bits : UInt64
deriving DecidableEq, Repr

namespace Binary64

def zero : Binary64 := ⟨0⟩

def one : Binary64 := ⟨0x3ff0000000000000⟩

/-! ## Fields -/

/-- Whether the sign bit is set. -/
def negative (x : Binary64) : Bool := x.bits >>> 63 = 1

/-- The bits without the sign. -/
def magnitude (x : Binary64) : Nat := (x.bits &&& 0x7fffffffffffffff).toNat

/-- The magnitude of the infinities. Only those of NaN are above it. -/
def infiniteMagnitude : Nat := 0x7ff0000000000000

/-- The number with a sign and a magnitude. -/
def ofMagnitude (negative : Bool) (m : Nat) : Binary64 :=
  ⟨(if negative then 0x8000000000000000 else 0) ||| UInt64.ofNat m⟩

/-- What the bits of a number say. A finite number is `significand * 2 ^ exponent`, up to its
sign. -/
inductive Decoded
  | finite (negative : Bool) (significand : Nat) (exponent : Int)
  | infinite (negative : Bool)
  | nan (negative : Bool)
deriving DecidableEq, Repr

/-- Reads the sign, the exponent field and the fraction field. -/
def decode (x : Binary64) : Decoded :=
  let exponent : Nat := (x.bits >>> 52 &&& 0x7ff).toNat
  let fraction : Nat := (x.bits &&& 0xfffffffffffff).toNat
  if exponent = 0x7ff then
    if fraction = 0 then .infinite x.negative else .nan x.negative
  else if exponent = 0 then .finite x.negative fraction (-1074)
  else .finite x.negative (0x10000000000000 + fraction) ((exponent : Int) - 1075)

/-! ## Order -/

def isNaN (x : Binary64) : Bool := infiniteMagnitude < x.magnitude

/-- Where a number that is not NaN stands among the others. Both zeros stand in one place. -/
def place (x : Binary64) : Int := if x.negative then -(x.magnitude : Int) else x.magnitude

/-- The order of the format: no number is below, above or equal to NaN, and the zeros are equal. -/
def le (x y : Binary64) : Bool := !x.isNaN && !y.isNaN && decide (x.place ≤ y.place)

def lt (x y : Binary64) : Bool := !x.isNaN && !y.isNaN && decide (x.place < y.place)

end Binary64

end Haptics
