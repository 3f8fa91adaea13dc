import GimbalLink.Binary32.Rounding
/-
  Arithmetic on single-precision values.

  Sums, products and roots are computed exactly on whole units of 2^-149 and then
  rounded once. `isqrt` is the whole-number root the rounding of `sqrt` starts
  from.

  What is proved: `isqrt n` is the largest number whose square is at most `n`
  (`isqrt_le`, `lt_succ_isqrt`).
-/
namespace GimbalLink

/-- The whole-number root of `n`, found two bits of `n` at a time. -/
def isqrtBits : Nat → Nat → Nat
  | 0, _ => 0
  | k + 1, n =>
    let r := 2 * isqrtBits k (n / 4)
    if (r + 1) * (r + 1) ≤ n then r + 1 else r

/-- The largest number whose square is at most `n`. -/
def isqrt (n : Nat) : Nat := isqrtBits (n.log2 / 2 + 1) n

theorem isqrtBits_bounds (k n : Nat) (h : n < 1 <<< (2 * k)) :
    isqrtBits k n * isqrtBits k n ≤ n ∧ n < (isqrtBits k n + 1) * (isqrtBits k n + 1) := by
  induction k generalizing n with
  | zero =>
    have h : n < 1 := h
    simp [isqrtBits]
    omega
  | succ k ih =>
    have hq : n / 4 < 1 <<< (2 * k) := by
      rw [Nat.mul_succ, Nat.shiftLeft_succ, Nat.shiftLeft_succ] at h
      omega
    obtain ⟨lo, hi⟩ := ih (n / 4) hq
    simp only [isqrtBits]
    generalize isqrtBits k (n / 4) = s at *
    have sq (a : Nat) : (a + 1) * (a + 1) = a * a + 2 * a + 1 := by
      simp only [Nat.add_mul, Nat.mul_add, Nat.mul_one, Nat.one_mul]; omega
    have dbl : 2 * s * (2 * s) = 4 * (s * s) := by
      rw [Nat.mul_mul_mul_comm]
    have up : n < 4 * ((s + 1) * (s + 1)) := by omega
    rw [sq s] at up
    split
    · next hc =>
      refine ⟨hc, ?_⟩
      rw [sq (2 * s + 1), sq (2 * s), dbl]
      omega
    · next hc =>
      refine ⟨?_, Nat.lt_of_not_le hc⟩
      rw [dbl]
      omega

/-- Every two bits of a number give one bit of its root. -/
theorem lt_shiftLeft_log2 (n : Nat) : n < 1 <<< (2 * (n.log2 / 2 + 1)) := by
  rw [Nat.one_shiftLeft]
  exact Nat.lt_of_lt_of_le Nat.lt_log2_self (Nat.pow_le_pow_right (by decide) (by omega))

theorem isqrt_le (n : Nat) : isqrt n * isqrt n ≤ n :=
  (isqrtBits_bounds _ n (lt_shiftLeft_log2 n)).1

theorem lt_succ_isqrt (n : Nat) : n < (isqrt n + 1) * (isqrt n + 1) :=
  (isqrtBits_bounds _ n (lt_shiftLeft_log2 n)).2

namespace Binary32

/-- The sum, rounded once. Opposite infinities have none; a sum of zero is negative
only when both sides are. -/
def add (x y : Binary32) : Binary32 :=
  if x.isNaN || y.isNaN then nan
  else if x.isInfinite then
    if y.isInfinite && x.negative != y.negative then nan else x
  else if y.isInfinite then y
  else
    let sum := x.units + y.units
    if sum = 0 then
      if x.negative && y.negative then negativeZero else zero
    else nearest (decide (sum < 0)) sum.natAbs 0

/-- The product, rounded once. Zero times infinity has none. -/
def mul (x y : Binary32) : Binary32 :=
  let sign := x.negative != y.negative
  if x.isNaN || y.isNaN then nan
  else if x.isInfinite || y.isInfinite then
    if x.pattern = 0 || y.pattern = 0 then nan else ofPattern sign infinitePattern
  else nearest sign (x.magnitude * y.magnitude) 149

/-- The square root, rounded once. Where the root is not a whole number at this
resolution, a one below its last bit stands for the rest, which is enough to round it. -/
def sqrt (x : Binary32) : Binary32 :=
  if x.isNaN then nan
  else if x.pattern = 0 then x
  else if x.negative then nan
  else if x.isInfinite then x
  else
    let square := x.magnitude <<< 149
    let root := isqrt square
    nearest false (2 * root + if root * root = square then 0 else 1) 1

instance : Add Binary32 := ⟨add⟩

instance : Mul Binary32 := ⟨mul⟩

end Binary32

end GimbalLink
