/-
  The speed of a serial line.

  What is proved: a line without a speed takes no time (`transmitMicros_stopped`).
-/
namespace GimbalLink

inductive StopBits where
  | one
  | two
  deriving DecidableEq, Repr

structure Uart where
  /-- Bits in a second. -/
  baudRate : UInt32
  stopBits : StopBits
  deriving DecidableEq

namespace Uart

/-- The speed at which the gimbal listens. -/
def standard : Uart := ⟨115200, .one⟩

/-- A start bit, eight data bits and the stop bits. -/
def bitsPerByte (u : Uart) : Nat :=
  match u.stopBits with
  | .one => 10
  | .two => 11

/-- Microseconds that some bytes take on the line. The count of bytes is a 32-bit
word; the count of bits stops at the largest word, and the time wraps around. -/
def transmitMicros (u : Uart) (length : Nat) : UInt32 :=
  if u.baudRate = 0 then 0
  else
    let bits := min (u.bitsPerByte * (length % UInt32.size)) (UInt32.size - 1)
    UInt32.ofNat (bits * 1000000 / u.baudRate.toNat)

theorem transmitMicros_stopped (s : StopBits) (length : Nat) :
    transmitMicros ⟨0, s⟩ length = 0 := rfl

end Uart

end GimbalLink
