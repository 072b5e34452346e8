/-!
# Bytes

Raw bytes as they travel to and from devices and clients, and the bytes of a text.
-/

namespace Haptics

/-- A sequence of raw bytes. -/
abbrev Bytes := List UInt8

namespace Bytes

/-- The UTF-8 bytes of a text. -/
def ofText (s : String) : Bytes := s.toUTF8.data.toList

/-- The byte of each character of an ASCII text. -/
def ofAscii (cs : List Char) : Bytes := cs.map fun c => c.val.toUInt8

/-- The decimal digits of a number, in ASCII. -/
def ofNat (n : Nat) : Bytes := ofAscii (Nat.toDigits 10 n)

end Bytes

end Haptics
