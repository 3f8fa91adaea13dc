import GimbalLink.Binary32.Arithmetic
/-
  Circular functions on single-precision values.

  The cosine and the direction of a vector are computed in fixed point with
  `scale` bits below the point, far beyond the 24 bits of the result, and rounded
  once. So `cos` and `atan2` are the rounded functions themselves, and stand in for
  `cosf` and `atan2f` of libm, which round on the way and can differ in the last bit.
  What is proved of bearings uses the sign and the bounds of a result, and nothing else
  of it (`Binary32.cos_bounds`, `Binary32.atan2_bounds`).

  The angle of a vector in the quarter circle is halved three times by adding its
  length to its first component, which leaves a slope below a fifth; the slope's
  alternating power series then gains more than four bits a term.
-/
namespace GimbalLink

/-- Bits below the point. -/
def scale : Nat := 320

/-- One in fixed point. -/
def fixedOne : Nat := 1 <<< scale

/-! ## Cosine -/

/-- The sum `t - t q / ((2i+1)(2i+2)) + …` of `n` terms, where `q` is the squared
angle: from the term with index `i` of the cosine's power series, the rest of it. -/
def cosineSeries (q : Nat) : Nat → Nat → Nat → Int
  | 0, _, _ => 0
  | n + 1, i, t =>
    (t : Int) - cosineSeries q n (i + 1) (t * q / fixedOne / ((2 * i + 1) * (2 * i + 2)))

/-- The cosine of a fixed-point angle. Sixty terms are enough up to two turns. -/
def cosineFixed (angle : Nat) : Int := cosineSeries (angle * angle / fixedOne) 60 0 fixedOne

/-! ## Direction of a vector -/

/-- The sum `w/d - w q/(d+2) + …` of `n` terms, where `q` is the squared slope. -/
def arctanSeries (q : Nat) : Nat → Nat → Nat → Int
  | 0, _, _ => 0
  | n + 1, d, w => ((w / d : Nat) : Int) - arctanSeries q n (d + 2) (w * q / fixedOne)

/-- The vector at half the angle: the first component grows by the length. -/
def halfAngle (v : Nat × Nat) : Nat × Nat := (v.1 + isqrt (v.1 * v.1 + v.2 * v.2), v.2)

/-- The angle of the vector `(x, y)` in the quarter circle, in fixed point; zero for
the vector without a direction. -/
def quarterAngle (y x : Nat) : Nat :=
  let v := halfAngle (halfAngle (halfAngle (x * fixedOne, y * fixedOne)))
  let slope := v.2 * fixedOne / v.1
  8 * (arctanSeries (slope * slope / fixedOne) 75 1 slope).toNat

/-- Half a turn in fixed point. -/
def halfTurn : Nat := 2 * quarterAngle 1 0

namespace Binary32

/-- The value nearest to a fixed-point number. -/
def ofFixed (negative : Bool) (v : Nat) : Binary32 := nearest negative v (scale - 149)

/-- The cosine of an angle in radians within two turns, rounded once. It stands in for
libm's `cosf`, of which the last bit can differ; only its sign and its bounds are relied on
(`cos_bounds`). -/
def cos (x : Binary32) : Binary32 :=
  if x.isNaN || x.isInfinite then nan
  else
    let c := cosineFixed (x.magnitude <<< (scale - 149))
    ofFixed (decide (c < 0)) c.natAbs

/-- A component's share in a direction: beside an infinite one a finite one has none. -/
def component (infinite : Bool) (x : Binary32) : Nat :=
  if infinite then (if x.isInfinite then 1 else 0) else x.magnitude

/-- The direction of the vector `(x, y)` in radians, from minus half a turn to half a
turn, with the sign of `y`, rounded once. It stands in for libm's `atan2f`, of which the last
bit can differ; only its sign and its bounds are relied on (`atan2_bounds`). -/
def atan2 (y x : Binary32) : Binary32 :=
  if y.isNaN || x.isNaN then nan
  else
    let infinite := y.isInfinite || x.isInfinite
    let angle := quarterAngle (component infinite y) (component infinite x)
    ofFixed y.negative (if x.negative then halfTurn - angle else angle)

/-- Degrees in a radian, to the nearest value: 57.29578. -/
def degreesPerRadian : Binary32 := ⟨0x42652ee1⟩

/-- Radians in a degree: the rounded number pi over 180, 0.017453292. -/
def radiansPerDegree : Binary32 := ⟨0x3c8efa35⟩

def toDegrees (x : Binary32) : Binary32 := x * degreesPerRadian

def toRadians (x : Binary32) : Binary32 := x * radiansPerDegree

end Binary32

end GimbalLink
