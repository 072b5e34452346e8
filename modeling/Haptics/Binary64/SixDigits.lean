import Haptics.Binary64.Arithmetic
/-!
# Six significant digits

The text of a binary64 number for people to read: six significant digits, the last one rounded to
nearest with ties to even, trailing zeros dropped. Numbers from 0.0001 up to a million are written
positionally and all others with an exponent of at least two digits.
-/

namespace Haptics

namespace Binary64

/-- The least `k` up to a bound with `den ≤ num * 10 ^ k`. -/
def leadingZeros (den : Nat) : Nat → Nat → Nat
  | 0, _ => 0
  | bound + 1, num => if den ≤ num then 0 else leadingZeros den bound (num * 10) + 1

/-- The place of the first significant digit of a positive quotient: `10 ^ place` is the largest
power of ten that is not above it. -/
def leadingPlace (num den : Nat) : Int :=
  if den ≤ num then ((Nat.toDigits 10 (num / den)).length : Int) - 1
  else -(leadingZeros den 400 num : Int)

/-- The quotient times a power of ten, as a quotient. -/
def scaled (num den : Nat) (power : Int) : Nat × Nat :=
  if 0 ≤ power then (num * Nat.pow 10 power.toNat, den)
  else (num, den * Nat.pow 10 (-power).toNat)

/-- Six digits of a positive quotient and the place of the first. -/
def sixDigits (num den : Nat) : Nat × Int :=
  let place := leadingPlace num den
  let (n, d) := scaled num den (5 - place)
  let digits := evenQuotient n d
  if digits = 1000000 then (100000, place + 1) else (digits, place)

/-- Drops the zeros at the end of a fraction. -/
def dropTrailingZeros (digits : List Char) : List Char :=
  (digits.reverse.dropWhile (· = '0')).reverse

/-- Joins a whole part and a fraction, without a point where the fraction is empty. -/
def withFraction (whole fraction : List Char) : List Char :=
  match dropTrailingZeros fraction with
  | [] => whole
  | f => whole ++ '.' :: f

/-- An exponent with its sign and at least two digits. -/
def exponentText (e : Int) : List Char :=
  let digits := Nat.toDigits 10 e.natAbs
  'e' :: (if e < 0 then '-' else '+') ::
    (if digits.length < 2 then '0' :: digits else digits)

/-- The text of a positive quotient. -/
def magnitudeText (num den : Nat) : List Char :=
  let (digits, place) := sixDigits num den
  let text := Nat.toDigits 10 digits
  if place < -4 ∨ 6 ≤ place then
    withFraction (text.take 1) (text.drop 1) ++ exponentText place
  else if place < 0 then
    withFraction ['0'] (List.replicate (-place - 1).toNat '0' ++ text)
  else
    withFraction (text.take (place.toNat + 1)) (text.drop (place.toNat + 1))

/-- The text of a number in six significant digits. -/
def text (x : Binary64) : String :=
  let signed (negative : Bool) (cs : List Char) :=
    String.ofList (if negative then '-' :: cs else cs)
  match x.decode with
  | .nan negative => signed negative ['n', 'a', 'n']
  | .infinite negative => signed negative ['i', 'n', 'f']
  | .finite negative significand exponent =>
    if significand = 0 then signed negative ['0']
    else if 0 ≤ exponent then signed negative (magnitudeText (significand <<< exponent.toNat) 1)
    else signed negative (magnitudeText significand (1 <<< (-exponent).toNat))

end Binary64

end Haptics
