import GimbalLink.Pointing.Bearing
import GimbalLink.Proofs.Binary32.Circular
/-
  On which side a bearing turns.

  Longitudes lie on a circle, but `anglesToward` takes their difference as it stands.
  Within 89 degrees of the equator none of the roundings behind that difference loses
  its sign or leaves the finite values, so the sign of the yaw is the sign of the plain
  difference. That is the shorter way round as long as the difference is below half a
  circle; two places on either side of the 180th meridian have it the other way.

  What is proved:
  1. the yaw is above or below zero as the target's longitude is (`anglesToward_side`);
  2. it turns the shorter way just where the longitudes differ by less than half a
     circle (`goesShortWay_iff`).
-/
namespace GimbalLink

namespace Binary32

/-- Whether a value is a number above zero. -/
def IsPositive (x : Binary32) : Prop := x.isNaN = false ∧ 0 < x.pattern ∧ x.negative = false

/-- Whether a value is a number below zero. -/
def IsNegative (x : Binary32) : Prop := x.isNaN = false ∧ 0 < x.pattern ∧ x.negative = true

instance (x : Binary32) : Decidable x.IsPositive := inferInstanceAs (Decidable (_ ∧ _ ∧ _))

instance (x : Binary32) : Decidable x.IsNegative := inferInstanceAs (Decidable (_ ∧ _ ∧ _))

theorem IsPositive.not_isNegative {x : Binary32} (h : x.IsPositive) : ¬x.IsNegative :=
  fun hn => Bool.false_ne_true (h.2.2.symm.trans hn.2.2)

/-! ## The ends of the ranges -/

/-- The largest mean latitude, in radians. -/
def steepest : Binary32 := (ofInt 1780000000 * halfUnit).toRadians

/-- The least part of a degree of latitude that one of longitude is long. -/
def leastShrink : Binary32 := ofFixed false (fixedOne / 128)

/-- The least distance east in metres that is not none. -/
def leastEast : Binary32 := ofInt 1 * leastShrink * metresPerUnit

def mostEast : Binary32 := ofInt 3600000000 * ofFixed false fixedOne * metresPerUnit

def mostNorth : Binary32 := ofInt 1780000000 * metresPerUnit

/-- How many times as far north a place can be as it is east, at the most. -/
def mostTimes : Nat := 1 <<< 38

/-- The least angle off the meridian. -/
def leastAngle : Binary32 := ofFixed false (fixedOne / (8 * mostTimes + 7))

/-- More than half a turn, and no less than any angle off the meridian. -/
def fourRadians : Binary32 := ofFixed false (4 * fixedOne)

end Binary32

namespace Location

open Binary32

/-- Half a circle. -/
def halfCircle : Nat := 1800000000

/-- A place within 89 degrees of the equator, at a longitude within 180 degrees. -/
structure Charted (p : Location) : Prop where
  latitude : p.latitude.toInt.natAbs ≤ 890000000
  longitude : p.longitude.toInt.natAbs ≤ halfCircle

instance (p : Location) : Decidable p.Charted :=
  decidable_of_iff
    (p.latitude.toInt.natAbs ≤ 890000000 ∧ p.longitude.toInt.natAbs ≤ halfCircle)
    ⟨fun h => ⟨h.1, h.2⟩, fun h => ⟨h.latitude, h.longitude⟩⟩

/-- By how much the longitude of `there` exceeds that of `here`. -/
def eastward (here there : Location) : Int := there.longitude.toInt - here.longitude.toInt

variable {here there : Location}

/-! ## Distances -/

/-- What a degree of longitude is long, beside one of latitude. -/
def shrink (here there : Location) : Binary32 :=
  cos (ofInt (here.latitude.toInt + there.latitude.toInt) * halfUnit).toRadians

/-- The distance east in metres. -/
def metresEast (here there : Location) : Binary32 :=
  ofInt (eastward here there) * shrink here there * metresPerUnit

def metresNorth (here there : Location) : Binary32 :=
  ofInt (there.latitude.toInt - here.latitude.toInt) * metresPerUnit

theorem yaw_eq (here there : Location) : (anglesToward here there).yaw =
    (atan2 (metresEast here there) (metresNorth here there)).toDegrees := rfl

theorem shrink_bounds (hh : here.Charted) (ht : there.Charted) :
    (shrink here there).negative = false ∧ leastShrink.pattern ≤ (shrink here there).pattern ∧
      (shrink here there).pattern ≤ (ofFixed false fixedOne).pattern := by
  have hlat : (here.latitude.toInt + there.latitude.toInt).natAbs ≤ (1780000000 : Int).natAbs := by
    have := hh.latitude
    have := ht.latitude
    omega
  have hangle : (ofInt (here.latitude.toInt + there.latitude.toInt) * halfUnit).toRadians.pattern ≤
      steepest.pattern :=
    pattern_mul_mono
      (pattern_mul_mono (pattern_ofInt_mono hlat) (Nat.le_refl _) (by decide +kernel) (by decide))
      (Nat.le_refl _) (by decide +kernel) (by decide)
  refine cos_bounds (IsFinite.of_le (by decide +kernel) hangle) ?_
  have hfixed := Nat.mul_le_mul_right (2 ^ (scale - 149)) (magnitude_mono hangle)
  rw [← Nat.shiftLeft_eq, ← Nat.shiftLeft_eq] at hfixed
  calc 64 * _ ≤ 64 * ((steepest.magnitude <<< (scale - 149)) *
        (steepest.magnitude <<< (scale - 149)) / fixedOne) :=
        Nat.mul_le_mul_left _ (Nat.div_le_div_right (Nat.mul_le_mul hfixed hfixed))
    _ ≤ 155 * fixedOne := by decide +kernel

theorem metresEast_bounds (hh : here.Charted) (ht : there.Charted) (hd : eastward here there ≠ 0) :
    (metresEast here there).negative = decide (eastward here there < 0) ∧
      leastEast.pattern ≤ (metresEast here there).pattern ∧
      (metresEast here there).pattern ≤ mostEast.pattern := by
  have hleast : (1 : Int).natAbs ≤ (eastward here there).natAbs := by omega
  have hmost : (eastward here there).natAbs ≤ (3600000000 : Int).natAbs := by
    have := hh.longitude
    have := ht.longitude
    simp only [eastward, halfCircle] at *
    omega
  have hint : (ofInt (eastward here there)).IsFinite :=
    IsFinite.of_le (by decide +kernel) (pattern_ofInt_mono hmost)
  obtain ⟨hsign, hlow, hhigh⟩ := shrink_bounds hh ht
  have hcos : (shrink here there).IsFinite := IsFinite.of_le (by decide +kernel) hhigh
  have hupper := pattern_mul_mono (pattern_ofInt_mono hmost) hhigh (by decide +kernel)
    (by decide +kernel)
  have hprod := IsFinite.of_le (by decide +kernel) hupper
  refine ⟨?_, ?_, ?_⟩
  · rw [metresEast, negative_mul hprod (by decide), negative_mul hint hcos, negative_ofInt, hsign]
    cases decide (eastward here there < 0) <;> rfl
  · exact pattern_mul_mono (pattern_mul_mono (pattern_ofInt_mono hleast) hlow hint hcos)
      (Nat.le_refl _) hprod (by decide)
  · exact pattern_mul_mono hupper (Nat.le_refl _) (by decide +kernel) (by decide)

theorem metresNorth_le (hh : here.Charted) (ht : there.Charted) :
    (metresNorth here there).pattern ≤ mostNorth.pattern := by
  have hmost : (there.latitude.toInt - here.latitude.toInt).natAbs ≤ (1780000000 : Int).natAbs := by
    have := hh.latitude
    have := ht.latitude
    omega
  exact pattern_mul_mono (pattern_ofInt_mono hmost) (Nat.le_refl _) (by decide +kernel) (by decide)

/-! ## The yaw -/

/-- The direction of the distances has the sign of the one east, and does not vanish. -/
theorem bearing_bounds (hh : here.Charted) (ht : there.Charted) (hd : eastward here there ≠ 0) :
    let bearing := atan2 (metresEast here there) (metresNorth here there)
    bearing.negative = decide (eastward here there < 0) ∧
      leastAngle.pattern ≤ bearing.pattern ∧ bearing.pattern ≤ fourRadians.pattern := by
  obtain ⟨hsign, hleast, hmost⟩ := metresEast_bounds hh ht hd
  have hnorth := metresNorth_le hh ht
  have heast : leastEast.magnitude ≤ (metresEast here there).magnitude := magnitude_mono hleast
  have hpos : 0 < leastEast.magnitude := by decide +kernel
  have htimes : (metresNorth here there).magnitude ≤
      mostTimes * (metresEast here there).magnitude :=
    calc (metresNorth here there).magnitude ≤ mostNorth.magnitude := magnitude_mono hnorth
      _ ≤ mostTimes * leastEast.magnitude := by decide +kernel
      _ ≤ mostTimes * (metresEast here there).magnitude := Nat.mul_le_mul_left _ heast
  rw [← hsign]
  exact atan2_bounds (IsFinite.of_le (by decide +kernel) hmost)
    (IsFinite.of_le (by decide +kernel) hnorth) (Nat.lt_of_lt_of_le hpos heast) htimes

theorem yaw_bounds (hh : here.Charted) (ht : there.Charted) (hd : eastward here there ≠ 0) :
    (anglesToward here there).yaw.isNaN = false ∧ 0 < (anglesToward here there).yaw.pattern ∧
      (anglesToward here there).yaw.negative = decide (eastward here there < 0) := by
  obtain ⟨hsign, hleast, hmost⟩ := bearing_bounds hh ht hd
  have hfinite := IsFinite.of_le (y := fourRadians) (by decide +kernel) hmost
  have hpos : 0 < (leastAngle * degreesPerRadian).pattern := by decide +kernel
  rw [yaw_eq, toDegrees]
  refine ⟨IsFinite.isNaN ?_, ?_, ?_⟩
  · exact IsFinite.of_le (by decide +kernel)
      (pattern_mul_mono hmost (Nat.le_refl _) (by decide +kernel) (by decide))
  · exact Nat.lt_of_lt_of_le hpos (pattern_mul_mono hleast (Nat.le_refl _) hfinite (by decide))
  · rw [negative_mul hfinite (by decide), hsign]
    cases decide (eastward here there < 0) <;> rfl

/-- The yaw is above or below zero as the longitude of `there` is above or below that of
`here`. -/
theorem anglesToward_side (hh : here.Charted) (ht : there.Charted) :
    (0 < eastward here there → (anglesToward here there).yaw.IsPositive) ∧
      (eastward here there < 0 → (anglesToward here there).yaw.IsNegative) := by
  constructor
  · intro hd
    obtain ⟨hnan, hpos, hsign⟩ := yaw_bounds hh ht (Int.ne_of_gt hd)
    rw [decide_eq_false (Int.not_lt.2 (Int.le_of_lt hd))] at hsign
    exact ⟨hnan, hpos, hsign⟩
  · intro hd
    obtain ⟨hnan, hpos, hsign⟩ := yaw_bounds hh ht (Int.ne_of_lt hd)
    rw [decide_eq_true hd] at hsign
    exact ⟨hnan, hpos, hsign⟩

/-! ## The shorter way -/

/-- A difference of longitudes turned into the half-open range from minus half a circle,
which is left out, to half a circle. -/
def wrapped (d : Int) : Int := -(-d).bmod (2 * halfCircle)

/-- Whether the yaw from `here` turns to the side on which `there` lies by the shorter way. -/
def GoesShortWay (here there : Location) : Prop :=
  if 0 < wrapped (eastward here there) then (anglesToward here there).yaw.IsPositive
  else (anglesToward here there).yaw.IsNegative

theorem wrapped_pos_iff {d : Int} (hd : d.natAbs ≤ 2 * halfCircle)
    (hhalf : ¬(halfCircle : Int) ∣ d) :
    0 < wrapped d ↔ (0 < d ↔ d.natAbs < halfCircle) := by
  simp only [wrapped, halfCircle] at *
  rw [Int.bmod_def]
  split <;> omega

/-- Between two places off each other's meridian the bearing turns the shorter way just
where their longitudes differ by less than half a circle. -/
theorem goesShortWay_iff (hh : here.Charted) (ht : there.Charted)
    (hhalf : ¬(halfCircle : Int) ∣ eastward here there) :
    GoesShortWay here there ↔ (eastward here there).natAbs < halfCircle := by
  obtain ⟨east, west⟩ := anglesToward_side hh ht
  have hmost : (eastward here there).natAbs ≤ 2 * halfCircle := by
    have := hh.longitude
    have := ht.longitude
    simp only [eastward]
    omega
  have hne : eastward here there ≠ 0 := fun h => hhalf (h ▸ Int.dvd_zero _)
  have hwrap := wrapped_pos_iff hmost hhalf
  rw [GoesShortWay]
  rcases Int.lt_or_gt_of_ne hne with hd | hd
  · have hyaw := west hd
    by_cases hs : (eastward here there).natAbs < halfCircle
    · rw [if_neg (by omega)]
      exact ⟨fun _ => hs, fun _ => hyaw⟩
    · rw [if_pos (by omega)]
      exact ⟨fun hp => absurd hyaw hp.not_isNegative, fun h => absurd h hs⟩
  · have hyaw := east hd
    by_cases hs : (eastward here there).natAbs < halfCircle
    · rw [if_pos (by omega)]
      exact ⟨fun _ => hs, fun _ => hyaw⟩
    · rw [if_neg (by omega)]
      exact ⟨fun hn => absurd hn hyaw.not_isNegative, fun h => absurd h hs⟩

/-- A place on the equator, 11 metres west of the 180th meridian. -/
def westOfLine : Location := ⟨0, 1799999000, 0⟩

/-- A place on the equator, 11 metres east of the 180th meridian. -/
def eastOfLine : Location := ⟨0, -1799999000, 0⟩

theorem goesShortWay_iff_across_line :
    westOfLine.Charted ∧ eastOfLine.Charted ∧
      ¬(halfCircle : Int) ∣ eastward westOfLine eastOfLine ∧
      (GoesShortWay westOfLine eastOfLine ↔
        (eastward westOfLine eastOfLine).natAbs < halfCircle) :=
  ⟨by decide, by decide, by decide,
    goesShortWay_iff (by decide) (by decide) (by decide)⟩

/-- Across the 180th meridian the bearing turns west to a place in the east. -/
theorem longWay_across_line :
    (0 < wrapped (eastward westOfLine eastOfLine) ∧
      (anglesToward westOfLine eastOfLine).yaw.IsNegative) ∧
    ¬∀ here there : Location, here.Charted → there.Charted →
      ¬(halfCircle : Int) ∣ eastward here there → GoesShortWay here there := by
  have heast : 0 < wrapped (eastward westOfLine eastOfLine) := by decide
  have hyaw : (anglesToward westOfLine eastOfLine).yaw.IsNegative :=
    (anglesToward_side (by decide) (by decide)).2 (by decide)
  refine ⟨⟨heast, hyaw⟩, fun h => ?_⟩
  have hshort := h westOfLine eastOfLine (by decide) (by decide) (by decide)
  rw [GoesShortWay, if_pos heast] at hshort
  exact hshort.not_isNegative hyaw

end Location

end GimbalLink
