import GimbalLink.Binary32.Circular
import GimbalLink.Proofs.Binary32.Monotone
import Mathlib.Tactic.Linarith
/-
  Bounds on the circular functions.

  Both power series alternate, and while their terms fall a sum lies between zero and
  its first term: two terms bound the arc tangent of a slope below one, and four the
  cosine. Halving the angle three times leaves a slope of at most a quarter.

  What is proved:
  1. an alternating sum lies between zero and its first term (`cosineSeries_bounds`,
     `arctanSeries_bounds`);
  2. the cosine of an angle whose square is at most 155/64 lies between 1/128 and one
     (`cosineFixed_bounds`), also as rounded (`cos_bounds`);
  3. halving leaves a slope of at most a quarter, and of no less than a share of the one
     before (`narrowedSlope_le`, `le_narrowedSlope`), and the angle is at least that
     slope and at most two (`quarterAngle_bounds`);
  4. the direction of a vector of finite components is finite, has the sign of the
     second one, and does not round to zero unless the second is too small beside the
     first (`atan2_bounds`).

  `cos_bounds` and `atan2_bounds` are all that is used of the two functions elsewhere, and
  they leave room for a last bit that is rounded the other way.
-/
namespace GimbalLink

theorem fixedOne_pos : 0 < fixedOne := by decide

/-! ## Cosine -/

theorem cosineSeries_bounds (q n i t : Nat) (hq : q ≤ fixedOne * ((2 * i + 1) * (2 * i + 2))) :
    0 ≤ cosineSeries q n i t ∧ cosineSeries q n i t ≤ t := by
  induction n generalizing i t with
  | zero => simp [cosineSeries]
  | succ n ih =>
    have hnext : q ≤ fixedOne * ((2 * (i + 1) + 1) * (2 * (i + 1) + 2)) :=
      Nat.le_trans hq (Nat.mul_le_mul_left _ (Nat.mul_le_mul (by omega) (by omega)))
    have hterm : t * q / fixedOne / ((2 * i + 1) * (2 * i + 2)) ≤ t := by
      rw [Nat.div_div_eq_div_mul]
      exact Nat.div_le_of_le_mul (by rw [Nat.mul_comm]; exact Nat.mul_le_mul_right _ hq)
    have hrest := ih (i + 1) (t * q / fixedOne / ((2 * i + 1) * (2 * i + 2))) hnext
    simp only [cosineSeries]
    omega

/-- Four terms `one - a + b - c` of the cosine's series, for the squared angle `q`. The
square of `q` stands in `b` only and is replaced by its tangent at the end of the range. -/
theorem le_four_terms {one q a b c : Nat} (hone : 1000000 ≤ one) (hq : 64 * q ≤ 155 * one)
    (ha : a = q / 2) (hb : b = a * q / (one * 12)) (hc : c = b * q / (one * 30)) :
    one + 128 * a + 128 * c ≤ 128 * one + 128 * b := by
  have hb' : a * q < (b + 1) * (one * 12) := by
    rw [hb, ← Nat.div_lt_iff_lt_mul (by omega)]
    exact Nat.lt_succ_self _
  have hc' : 1920 * c ≤ 155 * b := by
    have hdiv : c * (one * 30) ≤ b * q := hc ▸ Nat.div_mul_le_self _ _
    have hscaled : 1920 * c * one ≤ 155 * b * one := by nlinarith
    exact Nat.le_of_mul_le_mul_right hscaled (by omega)
  have tangent : 19840 * q ≤ 98304 * b + 24025 * one + 108224 := by
    have ha' : q ≤ 2 * a + 1 := by omega
    have hscaled : 19840 * q * one ≤ (98304 * b + 24025 * one + 108224) * one := by
      have square : 19840 * (q * one) ≤ 4096 * (q * q) + 24025 * (one * one) := by
        zify
        nlinarith [sq_nonneg (64 * (q : ℤ) - 155 * one)]
      nlinarith
    exact Nat.le_of_mul_le_mul_right hscaled (by omega)
  omega

theorem cosineFixed_bounds {angle : Nat} (h : 64 * (angle * angle / fixedOne) ≤ 155 * fixedOne) :
    (fixedOne : Int) ≤ 128 * cosineFixed angle ∧ cosineFixed angle ≤ fixedOne := by
  simp only [cosineFixed]
  generalize angle * angle / fixedOne = q at *
  let a := fixedOne * q / fixedOne / ((2 * 0 + 1) * (2 * 0 + 2))
  let b := a * q / fixedOne / ((2 * 1 + 1) * (2 * 1 + 2))
  let c := b * q / fixedOne / ((2 * 2 + 1) * (2 * 2 + 2))
  let d := c * q / fixedOne / ((2 * 3 + 1) * (2 * 3 + 2))
  -- The first term may be smaller than the second; from the second on, the terms fall.
  have outer : cosineSeries q 60 0 fixedOne = fixedOne - cosineSeries q 59 1 a := rfl
  have inner : cosineSeries q 59 1 a = a - (b - (c - cosineSeries q 56 4 d)) := rfl
  have rest := cosineSeries_bounds q 59 1 a (by omega)
  have tail := cosineSeries_bounds q 56 4 d (by omega)
  have terms : fixedOne + 128 * a + 128 * c ≤ 128 * fixedOne + 128 * b :=
    le_four_terms (by decide) h (by simp only [a]; rw [Nat.mul_div_cancel_left _ fixedOne_pos])
      (Nat.div_div_eq_div_mul ..) (Nat.div_div_eq_div_mul ..)
  omega

/-! ## Direction of a vector -/

theorem arctanSeries_bounds (q n d w : Nat) (hq : q ≤ fixedOne) (hd : 0 < d) :
    0 ≤ arctanSeries q n d w ∧ arctanSeries q n d w ≤ (w / d : Nat) := by
  induction n generalizing d w with
  | zero =>
    simp only [arctanSeries]
    exact ⟨Int.le_refl 0, Int.natCast_nonneg _⟩
  | succ n ih =>
    have hpower : w * q / fixedOne ≤ w :=
      Nat.div_le_of_le_mul (by rw [Nat.mul_comm]; exact Nat.mul_le_mul_right _ hq)
    have hterm : w * q / fixedOne / (d + 2) ≤ w / d :=
      Nat.div_le_div hpower (Nat.le_add_right d 2) (Nat.ne_of_gt hd)
    have hrest := ih (d + 2) (w * q / fixedOne) (Nat.add_pos_left hd 2)
    simp only [arctanSeries]
    omega

theorem le_isqrt {k n : Nat} (h : k * k ≤ n) : k ≤ isqrt n := by
  have hlt : k * k < (isqrt n + 1) * (isqrt n + 1) := Nat.lt_of_le_of_lt h (lt_succ_isqrt n)
  exact Nat.le_of_lt_succ (Nat.mul_self_lt_mul_self_iff.1 hlt)

theorem isqrt_le_of {k n : Nat} (h : n ≤ k * k) : isqrt n ≤ k :=
  Nat.mul_self_le_mul_self_iff.1 (Nat.le_trans (isqrt_le n) h)

/-- The length of a vector is no less than either component and no more than both. -/
theorem halfAngle_bounds (v : Nat × Nat) :
    2 * v.1 ≤ (halfAngle v).1 ∧ v.1 + v.2 ≤ (halfAngle v).1 ∧
      (halfAngle v).1 ≤ 2 * v.1 + v.2 := by
  obtain ⟨a, b⟩ := v
  have first : a ≤ isqrt (a * a + b * b) := le_isqrt (Nat.le_add_right _ _)
  have second : b ≤ isqrt (a * a + b * b) := le_isqrt (Nat.le_add_left _ _)
  have sum : isqrt (a * a + b * b) ≤ a + b := isqrt_le_of (by nlinarith)
  simp only [halfAngle]
  omega

@[simp] theorem halfAngle_snd (v : Nat × Nat) : (halfAngle v).2 = v.2 := rfl

/-- The first component of the vector `(x, y)` once its angle is halved three times. -/
def narrowed (y x : Nat) : Nat :=
  (halfAngle (halfAngle (halfAngle (x * fixedOne, y * fixedOne)))).1

/-- The slope `quarterAngle` takes the arc tangent of. -/
def narrowedSlope (y x : Nat) : Nat := y * fixedOne * fixedOne / narrowed y x

theorem quarterAngle_eq (y x : Nat) : quarterAngle y x =
    8 * (arctanSeries (narrowedSlope y x * narrowedSlope y x / fixedOne) 75 1
      (narrowedSlope y x)).toNat := rfl

theorem narrowed_bounds (y x : Nat) :
    4 * (y * fixedOne) ≤ narrowed y x ∧ narrowed y x ≤ (8 * x + 7 * y) * fixedOne := by
  have h1 := halfAngle_bounds (x * fixedOne, y * fixedOne)
  have h2 := halfAngle_bounds (halfAngle (x * fixedOne, y * fixedOne))
  have h3 := halfAngle_bounds (halfAngle (halfAngle (x * fixedOne, y * fixedOne)))
  simp only [halfAngle_snd] at h1 h2 h3
  rw [Nat.add_mul, Nat.mul_assoc, Nat.mul_assoc]
  simp only [narrowed]
  omega

theorem narrowedSlope_le (y x : Nat) : 4 * narrowedSlope y x ≤ fixedOne := by
  have hnarrow : 4 * (y * fixedOne * fixedOne) ≤ narrowed y x * fixedOne := by
    rw [← Nat.mul_assoc]
    exact Nat.mul_le_mul_right _ (narrowed_bounds y x).1
  exact Nat.le_trans (Nat.mul_div_le_mul_div_assoc ..) (Nat.div_le_of_le_mul hnarrow)

/-- Where `x` is at most `r` times `y`, the slope after halving is no less than one part
in `8r + 7`. -/
theorem le_narrowedSlope {y x r : Nat} (hy : 0 < y) (h : x ≤ r * y) :
    fixedOne / (8 * r + 7) ≤ narrowedSlope y x := by
  have hpos : 0 < narrowed y x := by
    have := Nat.mul_pos hy fixedOne_pos
    have := (narrowed_bounds y x).1
    omega
  have hnarrow : narrowed y x ≤ (8 * r + 7) * y * fixedOne := by
    refine Nat.le_trans (narrowed_bounds y x).2 (Nat.mul_le_mul_right _ ?_)
    rw [Nat.add_mul, Nat.mul_assoc]
    omega
  rw [narrowedSlope, Nat.le_div_iff_mul_le hpos]
  calc fixedOne / (8 * r + 7) * narrowed y x
      ≤ fixedOne / (8 * r + 7) * ((8 * r + 7) * y * fixedOne) := Nat.mul_le_mul_left _ hnarrow
    _ = fixedOne / (8 * r + 7) * (8 * r + 7) * (y * fixedOne) := by
        simp only [Nat.mul_assoc]
    _ ≤ fixedOne * (y * fixedOne) := Nat.mul_le_mul_right _ (Nat.div_mul_le_self ..)
    _ = y * fixedOne * fixedOne := Nat.mul_comm ..

theorem quarterAngle_bounds (y x : Nat) :
    narrowedSlope y x ≤ quarterAngle y x ∧ quarterAngle y x ≤ 2 * fixedOne := by
  have hslope := narrowedSlope_le y x
  rw [quarterAngle_eq]
  generalize narrowedSlope y x = s at *
  have hs : s ≤ fixedOne := by omega
  have hq : s * s / fixedOne ≤ fixedOne :=
    Nat.div_le_of_le_mul (Nat.mul_le_mul hs hs)
  have hpower : s * (s * s / fixedOne) / fixedOne ≤ s :=
    Nat.div_le_of_le_mul (by rw [Nat.mul_comm]; exact Nat.mul_le_mul_right _ hq)
  have outer : arctanSeries (s * s / fixedOne) 75 1 s =
      (s / 1 : Nat) - arctanSeries (s * s / fixedOne) 74 3 (s * (s * s / fixedOne) / fixedOne) := rfl
  have rest := arctanSeries_bounds (s * s / fixedOne) 74 3
    (s * (s * s / fixedOne) / fixedOne) hq (by decide)
  omega

theorem halfTurn_bounds : 3 * fixedOne ≤ halfTurn ∧ halfTurn ≤ 4 * fixedOne := by
  refine ⟨by decide +kernel, ?_⟩
  have := (quarterAngle_bounds 1 0).2
  simp only [halfTurn]
  omega

namespace Binary32

/-! ## As rounded -/

@[simp] theorem negative_ofFixed (s : Bool) (v : Nat) : (ofFixed s v).negative = s :=
  negative_nearest _ _ _

theorem pattern_ofFixed_mono {s s' : Bool} {v w : Nat} (h : v ≤ w) :
    (ofFixed s v).pattern ≤ (ofFixed s' w).pattern := by
  simp only [ofFixed, pattern_nearest]
  exact nearestPattern_mono h

/-- The cosine of an angle of which the square is at most 155/64 is at least 1/128. -/
theorem cos_bounds {x : Binary32} (hx : x.IsFinite)
    (h : 64 * ((x.magnitude <<< (scale - 149)) * (x.magnitude <<< (scale - 149)) / fixedOne) ≤
      155 * fixedOne) :
    (cos x).negative = false ∧ (ofFixed false (fixedOne / 128)).pattern ≤ (cos x).pattern ∧
      (cos x).pattern ≤ (ofFixed false fixedOne).pattern := by
  obtain ⟨lower, upper⟩ := cosineFixed_bounds h
  have hcos : cos x = ofFixed (decide (cosineFixed (x.magnitude <<< (scale - 149)) < 0))
      (cosineFixed (x.magnitude <<< (scale - 149))).natAbs := by
    simp [cos, hx.isNaN, hx.isInfinite]
  rw [hcos]
  generalize cosineFixed (x.magnitude <<< (scale - 149)) = c at *
  refine ⟨?_, pattern_ofFixed_mono (by omega), pattern_ofFixed_mono (by omega)⟩
  rw [negative_ofFixed]
  simp only [decide_eq_false_iff_not]
  omega

/-- The direction of a vector of finite components has the sign of the second one and is
at most half a turn. Where the first is at most `r` times as large as the second, it is
no less than one part in `8r + 7`. -/
theorem atan2_bounds {y x : Binary32} {r : Nat} (hy : y.IsFinite) (hx : x.IsFinite)
    (hpos : 0 < y.magnitude) (h : x.magnitude ≤ r * y.magnitude) :
    (atan2 y x).negative = y.negative ∧
      (ofFixed false (fixedOne / (8 * r + 7))).pattern ≤ (atan2 y x).pattern ∧
      (atan2 y x).pattern ≤ (ofFixed false (4 * fixedOne)).pattern := by
  have hatan : atan2 y x = ofFixed y.negative
      (if x.negative then halfTurn - quarterAngle y.magnitude x.magnitude
        else quarterAngle y.magnitude x.magnitude) := by
    simp [atan2, hy.isNaN, hx.isNaN, hy.isInfinite, hx.isInfinite, component]
  have hpart : fixedOne / (8 * r + 7) ≤ fixedOne := Nat.div_le_self ..
  have hslope := le_narrowedSlope hpos h
  have hangle := quarterAngle_bounds y.magnitude x.magnitude
  have hturn := halfTurn_bounds
  rw [hatan, negative_ofFixed]
  refine ⟨rfl, pattern_ofFixed_mono ?_, pattern_ofFixed_mono ?_⟩ <;> split <;> omega

end Binary32

end GimbalLink
