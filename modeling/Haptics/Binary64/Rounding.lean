import Haptics.Binary64
/-!
# Rounding to an integer

The nearest integer of a binary64 number, a half going away from zero, and the same squeezed into
the 64-bit integers: a number that is too large, or is no number, has the least of them as its
place.
-/

namespace Haptics

namespace Binary64

/-- The quotient rounded to the nearest natural number, a half going up. -/
def roundedQuotient (num den : Nat) : Nat :=
  (2 * num + den) / (2 * den)

/-- The nearest integer, a half going away from zero; nothing for NaN and the infinities. -/
def nearestInt? (x : Binary64) : Option Int :=
  match x.decode with
  | .nan _ | .infinite _ => none
  | .finite negative significand exponent =>
    let magnitude :=
      if 0 ≤ exponent then significand <<< exponent.toNat
      else roundedQuotient significand (1 <<< (-exponent).toNat)
    some (if negative then -(magnitude : Int) else magnitude)

/-- The least 64-bit integer, which stands for everything that has no place among them. -/
def leastInt64 : Int := -0x8000000000000000

/-- The nearest integer where it is a 64-bit one. -/
def nearestInt64 (x : Binary64) : Int :=
  match x.nearestInt? with
  | some n => if leastInt64 ≤ n ∧ n < -leastInt64 then n else leastInt64
  | none => leastInt64

end Binary64

end Haptics
