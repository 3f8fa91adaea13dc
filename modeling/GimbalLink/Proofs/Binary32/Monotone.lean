import GimbalLink.Binary32.Arithmetic
/-
  Rounding keeps the order of sizes.

  The pattern of a value orders the sizes of values, and `nearestPattern` is an
  increasing function of the exact number. So a product of smaller values is no
  larger than the product of larger ones, roundings included, and a bound on a
  computation over a range of inputs is the same computation at the ends of the range.

  What is proved:
  1. `halfEven`, `nearestPattern` and `magnitude` keep the order (`halfEven_mono`,
     `nearestPattern_mono`, `magnitude_mono`);
  2. sign and size of a product of finite values, and that it grows with both of them
     (`negative_mul`, `pattern_mul`, `pattern_mul_mono`);
  3. the same for a whole number (`negative_ofInt`, `pattern_ofInt_mono`).
-/
namespace GimbalLink

/-! ## Rounding a quotient -/

theorem div_le_halfEven (n d : Nat) : n / d ≤ halfEven n d := by
  simp only [halfEven]
  split
  · exact Nat.le_refl _
  · split <;> omega

theorem halfEven_le_succ (n d : Nat) : halfEven n d ≤ n / d + 1 := by
  simp only [halfEven]
  split
  · omega
  · split <;> omega

theorem halfEven_mono {n m d : Nat} (h : n ≤ m) : halfEven n d ≤ halfEven m d := by
  rcases Nat.lt_or_eq_of_le (Nat.div_le_div_right (c := d) h) with hq | hq
  · calc halfEven n d ≤ n / d + 1 := halfEven_le_succ n d
      _ ≤ m / d := hq
      _ ≤ halfEven m d := div_le_halfEven m d
  · have hr : n % d ≤ m % d := by
      have hn := Nat.div_add_mod n d
      have hm := Nat.div_add_mod m d
      rw [hq] at hn
      omega
    simp only [halfEven, hq]
    generalize n % d = r at *
    generalize m % d = s at *
    by_cases hs : 2 * s < d
    · exact Nat.le_of_eq (by rw [if_pos (by omega), if_pos hs])
    · rw [if_neg hs]
      by_cases hs' : d < 2 * s
      · rw [if_pos hs']
        split
        · omega
        · split <;> omega
      · rw [if_neg hs']
        split
        · omega
        · exact Nat.le_of_eq (by rw [if_neg (by omega)])

theorem le_halfEven {n c d : Nat} (hd : 0 < d) (h : c * d ≤ n) : c ≤ halfEven n d :=
  Nat.le_trans ((Nat.le_div_iff_mul_le hd).2 h) (div_le_halfEven n d)

theorem halfEven_le {n c d : Nat} (h : n < c * d) : halfEven n d ≤ c :=
  Nat.le_trans (halfEven_le_succ n d) (Nat.div_lt_of_lt_mul (by rwa [Nat.mul_comm]))

theorem log2_mono {n m : Nat} (h : n ≤ m) : n.log2 ≤ m.log2 := by
  rcases Nat.eq_zero_or_pos n with rfl | hn
  · simp
  · exact (Nat.le_log2 (by omega)).2 (Nat.le_trans (Nat.log2_self_le (by omega)) h)

namespace Binary32

/-! ## Rounding to a pattern -/

/-- By how many bits the number `n / 2^k` exceeds the 24 a value holds. -/
def excess (n k : Nat) : Nat := (n >>> k).log2 - 23

theorem excess_mono {n m k : Nat} (h : n ≤ m) : excess n k ≤ excess m k := by
  have hs : n >>> k ≤ m >>> k := by
    simpa only [Nat.shiftRight_eq_div_pow] using Nat.div_le_div_right h
  exact Nat.sub_le_sub_right (log2_mono hs) 23

theorem lt_shiftLeft_excess (n k : Nat) : n < 0x1000000 * 1 <<< (k + excess n k) := by
  have hexp : (n >>> k).log2 + 1 ≤ 24 + excess n k := by
    simp only [excess]
    omega
  have hlog : n >>> k < 2 ^ (24 + excess n k) :=
    Nat.lt_of_lt_of_le Nat.lt_log2_self (Nat.pow_le_pow_right (by decide) hexp)
  rw [Nat.shiftRight_eq_div_pow, Nat.div_lt_iff_lt_mul (Nat.two_pow_pos k)] at hlog
  rw [Nat.one_shiftLeft]
  calc n < 2 ^ (24 + excess n k) * 2 ^ k := hlog
    _ = 2 ^ 24 * 2 ^ (k + excess n k) := by
        rw [← Nat.pow_add, Nat.add_assoc, Nat.add_comm (excess n k), Nat.pow_add]

theorem shiftLeft_excess_le {n k : Nat} (h : 0 < excess n k) :
    0x800000 * 1 <<< (k + excess n k) ≤ n := by
  have hpos : n >>> k ≠ 0 := by
    intro h0
    simp [excess, h0] at h
  have hexp : 23 + excess n k ≤ (n >>> k).log2 := by
    simp only [excess] at *
    omega
  have hlog : 2 ^ (23 + excess n k) ≤ n >>> k :=
    Nat.le_trans (Nat.pow_le_pow_right (by decide) hexp) (Nat.log2_self_le hpos)
  rw [Nat.shiftRight_eq_div_pow, Nat.le_div_iff_mul_le (Nat.two_pow_pos k)] at hlog
  rw [Nat.one_shiftLeft]
  calc 2 ^ 23 * 2 ^ (k + excess n k) = 2 ^ (23 + excess n k) * 2 ^ k := by
        rw [← Nat.pow_add, Nat.add_comm k, ← Nat.add_assoc, Nat.pow_add]
    _ ≤ n := hlog

theorem nearestPattern_eq (n k : Nat) : nearestPattern n k =
    min (halfEven n (1 <<< (k + excess n k)) + excess n k * 0x800000) infinitePattern := rfl

/-- Numbers of one excess round to patterns up to the first one of the next. -/
theorem halfEven_excess_le (n k : Nat) : halfEven n (1 <<< (k + excess n k)) ≤ 0x1000000 :=
  halfEven_le (lt_shiftLeft_excess n k)

theorem le_halfEven_excess {n k : Nat} (h : 0 < excess n k) :
    0x800000 ≤ halfEven n (1 <<< (k + excess n k)) :=
  le_halfEven (by rw [Nat.one_shiftLeft]; exact Nat.two_pow_pos _) (shiftLeft_excess_le h)

theorem nearestPattern_mono {n m k : Nat} (h : n ≤ m) :
    nearestPattern n k ≤ nearestPattern m k := by
  have rounded : halfEven n (1 <<< (k + excess n k)) + excess n k * 0x800000 ≤
      halfEven m (1 <<< (k + excess m k)) + excess m k * 0x800000 := by
    rcases Nat.lt_or_eq_of_le (excess_mono (k := k) h) with he | he
    · -- the smaller number carries at most into the next exponent, where the larger one begins
      have hn := halfEven_excess_le n k
      have hm := le_halfEven_excess (Nat.zero_lt_of_lt he)
      omega
    · rw [he]
      exact Nat.add_le_add_right (halfEven_mono h) _
  rw [nearestPattern_eq, nearestPattern_eq]
  omega

theorem nearestPattern_le (n k : Nat) : nearestPattern n k ≤ infinitePattern :=
  Nat.min_le_right _ _

theorem nearestPattern_lt (n k : Nat) : nearestPattern n k < 0x80000000 :=
  Nat.lt_of_le_of_lt (nearestPattern_le n k) (by decide)

@[simp] theorem pattern_nearest (s : Bool) (n k : Nat) :
    (nearest s n k).pattern = nearestPattern n k :=
  pattern_ofPattern (nearestPattern_lt n k)

@[simp] theorem negative_nearest (s : Bool) (n k : Nat) : (nearest s n k).negative = s :=
  negative_ofPattern (nearestPattern_lt n k)

/-- Sizes are ordered like patterns. -/
theorem magnitude_mono {x y : Binary32} (h : x.pattern ≤ y.pattern) :
    x.magnitude ≤ y.magnitude := by
  have he : x.pattern / 0x800000 ≤ y.pattern / 0x800000 := Nat.div_le_div_right h
  have hfx : x.pattern % 0x800000 < 0x800000 := Nat.mod_lt _ (by decide)
  simp only [magnitude]
  rcases Nat.lt_or_eq_of_le he with he | he
  · rw [if_neg (show ¬ y.pattern / 0x800000 = 0 by omega)]
    have hlow : 0x800000 * 2 ^ (y.pattern / 0x800000 - 1) ≤
        (0x800000 + y.pattern % 0x800000) <<< (y.pattern / 0x800000 - 1) := by
      rw [Nat.shiftLeft_eq]
      exact Nat.mul_le_mul_right _ (Nat.le_add_right _ _)
    refine Nat.le_trans ?_ hlow
    split
    · have := Nat.two_pow_pos (y.pattern / 0x800000 - 1)
      omega
    · next hx =>
      rw [Nat.shiftLeft_eq]
      calc (0x800000 + x.pattern % 0x800000) * 2 ^ (x.pattern / 0x800000 - 1)
          ≤ 0x1000000 * 2 ^ (x.pattern / 0x800000 - 1) := Nat.mul_le_mul_right _ (by omega)
        _ = 0x800000 * 2 ^ (x.pattern / 0x800000) := by
            conv => rhs; rw [show x.pattern / 0x800000 = x.pattern / 0x800000 - 1 + 1 by omega]
            rw [Nat.pow_succ]
            omega
        _ ≤ 0x800000 * 2 ^ (y.pattern / 0x800000 - 1) :=
            Nat.mul_le_mul_left _ (Nat.pow_le_pow_right (by decide) (by omega))
  · have hf : x.pattern % 0x800000 ≤ y.pattern % 0x800000 := by
      have hx := Nat.div_add_mod x.pattern 0x800000
      have hy := Nat.div_add_mod y.pattern 0x800000
      rw [he] at hx
      omega
    rw [he]
    split
    · exact hf
    · simp only [Nat.shiftLeft_eq]
      exact Nat.mul_le_mul_right _ (Nat.add_le_add_left hf _)

/-! ## Finite values -/

/-- Whether a value is a number: neither infinite nor a NaN. -/
def IsFinite (x : Binary32) : Prop := x.pattern < infinitePattern

instance (x : Binary32) : Decidable x.IsFinite := Nat.decLt _ _

theorem IsFinite.of_le {x y : Binary32} (hy : y.IsFinite) (h : x.pattern ≤ y.pattern) :
    x.IsFinite :=
  Nat.lt_of_le_of_lt h hy

theorem IsFinite.isNaN {x : Binary32} (h : x.IsFinite) : x.isNaN = false := by
  simp only [Binary32.isNaN, decide_eq_false_iff_not, Nat.not_lt]
  exact Nat.le_of_lt h

theorem IsFinite.isInfinite {x : Binary32} (h : x.IsFinite) : x.isInfinite = false := by
  simp only [Binary32.isInfinite, beq_eq_false_iff_ne]
  exact Nat.ne_of_lt h

theorem mul_eq_nearest {x y : Binary32} (hx : x.IsFinite) (hy : y.IsFinite) :
    x * y = nearest (x.negative != y.negative) (x.magnitude * y.magnitude) 149 := by
  have hmul : x * y = mul x y := rfl
  rw [hmul, mul]
  simp [hx.isNaN, hy.isNaN, hx.isInfinite, hy.isInfinite]

theorem negative_mul {x y : Binary32} (hx : x.IsFinite) (hy : y.IsFinite) :
    (x * y).negative = (x.negative != y.negative) := by
  rw [mul_eq_nearest hx hy, negative_nearest]

theorem pattern_mul {x y : Binary32} (hx : x.IsFinite) (hy : y.IsFinite) :
    (x * y).pattern = nearestPattern (x.magnitude * y.magnitude) 149 := by
  rw [mul_eq_nearest hx hy, pattern_nearest]

/-- A product grows with its factors, also as rounded. -/
theorem pattern_mul_mono {x y x' y' : Binary32} (hx : x.pattern ≤ x'.pattern)
    (hy : y.pattern ≤ y'.pattern) (hx' : x'.IsFinite) (hy' : y'.IsFinite) :
    (x * y).pattern ≤ (x' * y').pattern := by
  rw [pattern_mul (hx'.of_le hx) (hy'.of_le hy), pattern_mul hx' hy']
  exact nearestPattern_mono (Nat.mul_le_mul (magnitude_mono hx) (magnitude_mono hy))

@[simp] theorem negative_ofInt (i : Int) : (ofInt i).negative = decide (i < 0) :=
  negative_nearest _ _ _

theorem pattern_ofInt_mono {i j : Int} (h : i.natAbs ≤ j.natAbs) :
    (ofInt i).pattern ≤ (ofInt j).pattern := by
  simp only [ofInt, pattern_nearest]
  apply nearestPattern_mono
  simpa only [Nat.shiftLeft_eq] using Nat.mul_le_mul_right _ h

end Binary32

end GimbalLink
