import GimbalLink.Binary32.Basic
/-
  Rounding exact numbers to the nearest single-precision value.

  An exact number is a ratio `n / 2^k` of whole units of 2^-149. Patterns of
  non-negative values are ordered like the values, and below `2^24` units a
  pattern is the number of units itself; above, each doubling of the value adds
  `2^23` to the pattern and halves the resolution. So a rounded pattern is
  `m + e * 2^23`, where `m` is the number rounded to a multiple of `2^e` units: a
  carry out of `m` moves into the exponent field by itself, and what passes the
  largest finite value stops at infinity.

  What is proved: `halfEven` is within half a step of the exact quotient
  (`halfEven_near`).
-/
namespace GimbalLink

/-- The quotient `n / d` to the nearest whole number, a tie going to the even one. -/
def halfEven (n d : Nat) : Nat :=
  let q := n / d
  let r := n % d
  if 2 * r < d then q else if d < 2 * r then q + 1 else q + q % 2

theorem halfEven_near {n d : Nat} (h : 0 < d) :
    2 * (halfEven n d * d) ≤ 2 * n + d ∧ 2 * n ≤ 2 * (halfEven n d * d) + d := by
  have hn := Nat.div_add_mod n d
  have hr := Nat.mod_lt n h
  rw [Nat.mul_comm] at hn
  simp only [halfEven]
  generalize n / d = q at *
  generalize n % d = r at *
  split
  · omega
  · have hs : (q + 1) * d = q * d + d := Nat.succ_mul q d
    split
    · omega
    · rcases Nat.mod_two_eq_zero_or_one q with e | e <;> rw [e]
      · rw [Nat.add_zero]; omega
      · omega

namespace Binary32

/-- The pattern nearest to `n / 2^k` units. -/
def nearestPattern (n k : Nat) : Nat :=
  let e := (n >>> k).log2 - 23
  min (halfEven n (1 <<< (k + e)) + e * 0x800000) infinitePattern

/-- The value nearest to `n / 2^k` units, under the given sign. -/
def nearest (negative : Bool) (n k : Nat) : Binary32 := ofPattern negative (nearestPattern n k)

/-- The value nearest to a whole number. -/
def ofInt (i : Int) : Binary32 := nearest (decide (i < 0)) (i.natAbs <<< 149) 0

/-- The whole number of a value: cut toward zero, held within the 32-bit range, and
zero for a NaN. -/
def toInt32 (x : Binary32) : Int32 :=
  if x.isNaN then 0
  else
    let size := x.magnitude >>> 149
    if x.negative then Int32.ofInt (-(min size 0x80000000 : Nat))
    else Int32.ofInt (min size 0x7fffffff : Nat)

end Binary32

end GimbalLink
