import GimbalLink.Navigation
import GimbalLink.Binary32.Circular
/-
  The direction from one place to another.

  The earth is taken as flat around the two places: a degree of longitude is as
  long as one of latitude times the cosine of the mean latitude. This is good over
  the short ranges a camera points at. Every step is rounded to single precision.
-/
namespace GimbalLink

namespace Binary32

/-- The length in metres of 1e-7 degrees of latitude, 0.01113195. -/
def metresPerUnit : Binary32 := ⟨0x3c3662c8⟩

/-- Half of 1e-7: from the sum of two latitudes in units to their mean in degrees. -/
def halfUnit : Binary32 := ⟨0x3356bf95⟩

/-- Centimetres in a metre. -/
def centimetresPerMetre : Binary32 := ⟨0x42c80000⟩

end Binary32

namespace Location

open Binary32 in
/-- The pitch and yaw in degrees at which `there` is seen from `here`. -/
def anglesToward (here there : Location) : Angles :=
  let meanLatitude := ofInt (here.latitude.toInt + there.latitude.toInt) * halfUnit
  let shrink := cos meanLatitude.toRadians
  let east := ofInt (there.longitude.toInt - here.longitude.toInt) * shrink * metresPerUnit
  let north := ofInt (there.latitude.toInt - here.latitude.toInt) * metresPerUnit
  let up := ofInt (there.altitude.toInt - here.altitude.toInt)
  let ahead := centimetresPerMetre * sqrt (east * east + north * north)
  { roll := zero
    pitch := (atan2 up ahead).toDegrees
    yaw := (atan2 east north).toDegrees }

end Location

end GimbalLink
