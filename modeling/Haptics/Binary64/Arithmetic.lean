import Haptics.Binary64
/-!
# Arithmetic

The result of an operation is the exact one rounded once: to the nearest number, a tie going to the
even neighbour. What is too large becomes infinite, and what has no value is NaN. Powers are the
exception: they are left to native floats, which do not round them exactly.
-/

namespace Haptics

namespace Binary64

/-! ## Rounding -/

/-- The quotient rounded to the nearest natural number, a tie going to the even neighbour. -/
def evenQuotient (num den : Nat) : Nat :=
  let q := num / den
  let r := num % den
  if 2 * r < den then q
  else if den < 2 * r then q + 1
  else if q % 2 = 0 then q else q + 1

/-- The quotient divided by a power of two, as a quotient. -/
def scaledDown (num den : Nat) (e : Int) : Nat × Nat :=
  if 0 ≤ e then (num, den <<< e.toNat) else (num <<< (-e).toNat, den)

/-- The exponent of the last place of the number nearest to a positive quotient: 53 places hold it,
or fewer where the exponent would be below the least. -/
def lastPlace (num den : Nat) : Int :=
  let e : Int := num.log2 - den.log2 - 53
  let (n, d) := scaledDown num den e
  max (if d <<< 53 ≤ n then e + 1 else e) (-1074)

/-- The magnitude of the number nearest to a quotient. Consecutive numbers have consecutive
magnitudes, so a significand that is rounded up to the next power of two gives the right one too. -/
def nearestMagnitude (num den : Nat) : Nat :=
  if num = 0 then 0
  else
    let e := lastPlace num den
    let (n, d) := scaledDown num den e
    min infiniteMagnitude ((e + 1074).toNat <<< 52 + evenQuotient n d)

/-- The number nearest to a quotient times a power of two. -/
def nearest (negative : Bool) (num den : Nat) (e : Int) : Binary64 :=
  let (n, d) := scaledDown num den (-e)
  ofMagnitude negative (nearestMagnitude n d)

/-- The nearest number to a natural number. -/
def ofNat (n : Nat) : Binary64 := nearest false n 1 0

/-- The number nearest to `m / 10 ^ e`. -/
def ofDecimal (negative : Bool) (m e : Nat) : Binary64 := nearest negative m (Nat.pow 10 e) 0

/-! ## Operations -/

def infinity (negative : Bool) : Binary64 := ofMagnitude negative infiniteMagnitude

def nan : Binary64 := ⟨0x7ff8000000000000⟩

/-- An integer with the given sign and magnitude. -/
def signed (negative : Bool) (n : Nat) : Int := if negative then -(n : Int) else n

/-- The sum of two finite numbers. A sum of zero is positive, unless both summands are negative. -/
def sum (s t : Bool) (m n : Nat) (e f : Int) : Binary64 :=
  let low := min e f
  let total := signed s (m <<< (e - low).toNat) + signed t (n <<< (f - low).toNat)
  if total = 0 then ofMagnitude (s && t) 0 else nearest (total < 0) total.natAbs 1 low

def neg (x : Binary64) : Binary64 := ofMagnitude (!x.negative) x.magnitude

def abs (x : Binary64) : Binary64 := ofMagnitude false x.magnitude

def add (x y : Binary64) : Binary64 :=
  match x.decode, y.decode with
  | .nan _, _ | _, .nan _ => nan
  | .infinite s, .infinite t => if s = t then infinity s else nan
  | .infinite s, _ | _, .infinite s => infinity s
  | .finite s m e, .finite t n f => sum s t m n e f

def sub (x y : Binary64) : Binary64 := x.add y.neg

def mul (x y : Binary64) : Binary64 :=
  match x.decode, y.decode with
  | .nan _, _ | _, .nan _ => nan
  | .infinite s, .infinite t => infinity (s != t)
  | .infinite s, .finite t n _ | .finite s n _, .infinite t =>
    if n = 0 then nan else infinity (s != t)
  | .finite s m e, .finite t n f => nearest (s != t) (m * n) 1 (e + f)

def div (x y : Binary64) : Binary64 :=
  match x.decode, y.decode with
  | .nan _, _ | _, .nan _ => nan
  | .infinite _, .infinite _ => nan
  | .infinite s, .finite t _ _ => infinity (s != t)
  | .finite s _ _, .infinite t => ofMagnitude (s != t) 0
  | .finite s m e, .finite t n f =>
    if n = 0 then (if m = 0 then nan else infinity (s != t))
    else nearest (s != t) m n (e - f)

instance : Add Binary64 := ⟨add⟩
instance : Sub Binary64 := ⟨sub⟩
instance : Mul Binary64 := ⟨mul⟩
instance : Div Binary64 := ⟨div⟩

/-- A power, as native floats give it. -/
def pow (x y : Binary64) : Binary64 :=
  ⟨((Float.ofBits x.bits).pow (Float.ofBits y.bits)).toBits⟩

end Binary64

end Haptics
