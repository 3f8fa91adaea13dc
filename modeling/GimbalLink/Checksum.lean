import GimbalLink.Bytes
/-
  The frame checksum.

  A 16-bit cyclic redundancy check, bit-reflected, known as CRC-16/MCRF4XX: the
  register starts at all ones, each byte is added to its low half and shifted out
  over eight steps, and every one that leaves brings in 0x8408, the polynomial
  0x1021 reflected. The register at the end is the checksum.

  What is proved: a checksum over parts is the checksum over the parts put
  together (`extend_append`), so a frame may be summed piece by piece. The check
  value of the code, and the checksum of a frame from the wire, pin it down.
-/
namespace GimbalLink

namespace Checksum

/-- The reflected generator polynomial. -/
def polynomial : UInt16 := 0x8408

/-- The register before the first byte. -/
def seed : UInt16 := 0xffff

/-- One bit leaves the register. -/
def shift (register : UInt16) : UInt16 :=
  if register &&& 1 = 1 then (register >>> 1) ^^^ polynomial else register >>> 1

/-- `n` bits leave the register. -/
def shifts : Nat → UInt16 → UInt16
  | 0, register => register
  | n + 1, register => shifts n (shift register)

/-- The register after one more byte. -/
def step (register : UInt16) (b : UInt8) : UInt16 := shifts 8 (register ^^^ b.toUInt16)

/-- The register after some more bytes. -/
def extend (register : UInt16) (bs : Bytes) : UInt16 := bs.foldl step register

theorem extend_append (register : UInt16) (a b : Bytes) :
    extend register (a ++ b) = extend (extend register a) b := List.foldl_append

end Checksum

/-- The checksum of some bytes. -/
def checksum (bs : Bytes) : UInt16 := Checksum.extend Checksum.seed bs

/-- The check value of CRC-16/MCRF4XX: the checksum of the characters 1 to 9. -/
example : checksum [0x31, 0x32, 0x33, 0x34, 0x35, 0x36, 0x37, 0x38, 0x39] = 0x6f91 := by
  decide +kernel

/-- A request for live data: length, command and the flags that are asked for. -/
example : checksum [0x02, 0x06, 0x02, 0x01] = 0xceb7 := by decide +kernel

end GimbalLink
