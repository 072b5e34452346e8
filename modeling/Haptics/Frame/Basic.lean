import Haptics.Text.Bytes
/-!
# Frames

A frame is the length of its payload in four bytes, the lowest first, and the payload. Frames follow
each other without anything between them, so the length alone tells where one ends.
-/

namespace Haptics

namespace Frame

/-- The greatest length of a payload: one mebibyte. -/
def maxSize : Nat := 1024 * 1024

/-- The number of bytes that the length takes. -/
def headSize : Nat := 4

/-- The digits of a number to the base 256, the lowest first. -/
def digits : Nat → Nat → Bytes
  | 0, _ => []
  | count + 1, n => UInt8.ofNat (n % 256) :: digits count (n / 256)

/-- The number with the given digits to the base 256, the lowest first. -/
def ofDigits : Bytes → Nat
  | [] => 0
  | d :: rest => d.toNat + 256 * ofDigits rest

/-- The frame of a payload. -/
def encode (payload : Bytes) : Bytes := digits headSize payload.length ++ payload

end Frame

end Haptics
