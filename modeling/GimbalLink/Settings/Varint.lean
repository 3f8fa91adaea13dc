import GimbalLink.Bytes
/-
  Numbers in as few bytes as they need.

  A number is written seven bits to a byte, lowest first; every byte but the last
  has its high bit set. A number of a given width fills at most so many bytes, and
  the last of those may hold only the bits that are left of the width. A form with
  more bytes than needed reads as the same number.

  A signed number is written as an unsigned one that alternates between the signs,
  so that small sizes stay short.

  What is proved: what was written reads back and leaves the rest alone
  (`read_write`), and the alternation is undone (`unzigzag_zigzag`).
-/
namespace GimbalLink

namespace Varint

/-- Writes a number in at most `n + 1` bytes. -/
def write : Nat → Nat → Bytes
  | 0, v => [UInt8.ofNat v]
  | n + 1, v =>
    if v < 128 then [UInt8.ofNat v]
    else UInt8.ofNat (v % 128 + 128) :: write n (v / 128)

/-- Reads a number of at most `n + 1` bytes, the last of them at most `last`. -/
def read (last : Nat) : Nat → Reader Nat
  | _, [] => none
  | 0, b :: rest => if b.toNat ≤ last then some (b.toNat, rest) else none
  | n + 1, b :: rest =>
    if b.toNat < 128 then some (b.toNat, rest)
    else (read last n rest).map fun r => (b.toNat - 128 + 128 * r.1, r.2)

/-- The first number that `n + 1` bytes do not hold, the last of them being at most
`last`. -/
def bound (last : Nat) : Nat → Nat
  | 0 => last + 1
  | n + 1 => 128 * bound last n

theorem toNat_ofNat {v : Nat} (h : v < 256) : (UInt8.ofNat v).toNat = v := by
  rw [UInt8.toNat_ofNat']
  exact Nat.mod_eq_of_lt h

theorem read_write (last n v : Nat) (rest : Bytes) (hl : last < 128)
    (hv : v < bound last n) : read last n (write n v ++ rest) = some (v, rest) := by
  induction n generalizing v with
  | zero =>
    have hv : v < last + 1 := hv
    have h : (UInt8.ofNat v).toNat = v := toNat_ofNat (by omega)
    simp only [write, List.cons_append, List.nil_append, read, h]
    rw [if_pos (by omega)]
  | succ n ih =>
    rw [write]
    split
    · next h =>
      have e : (UInt8.ofNat v).toNat = v := toNat_ofNat (by omega)
      simp only [List.cons_append, List.nil_append, read, e, if_pos h]
    · next h =>
      have e : (UInt8.ofNat (v % 128 + 128)).toNat = v % 128 + 128 := toNat_ofNat (by omega)
      have hq : v / 128 < bound last n := by
        rw [bound] at hv
        exact Nat.div_lt_of_lt_mul hv
      have hs : v % 128 + 128 - 128 + 128 * (v / 128) = v := by omega
      simp only [List.cons_append, read, e, ih _ hq, Option.map_some, hs]
      rw [if_neg (by omega)]

/-- Alternates between the signs: 0, -1, 1, -2, … -/
def zigzag (i : Int) : Nat := if i < 0 then 2 * i.natAbs - 1 else 2 * i.natAbs

def unzigzag (n : Nat) : Int := if n % 2 = 0 then (n / 2 : Nat) else -((n / 2 + 1 : Nat) : Int)

theorem unzigzag_zigzag (i : Int) : unzigzag (zigzag i) = i := by
  unfold zigzag unzigzag
  split <;> split <;> omega

/-! ## The widths in use -/

def write16 (w : UInt16) : Bytes := write 2 w.toNat

def write32 (w : UInt32) : Bytes := write 4 w.toNat

def writeInt32 (i : Int32) : Bytes := write 4 (zigzag i.toInt)

def read16 : Reader UInt16 := do return UInt16.ofNat (← read 3 2)

def read32 : Reader UInt32 := do return UInt32.ofNat (← read 15 4)

def readInt32 : Reader Int32 := do return Int32.ofInt (unzigzag (← read 15 4))

end Varint

end GimbalLink
