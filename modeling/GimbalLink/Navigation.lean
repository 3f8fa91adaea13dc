import GimbalLink.Binary32.Basic
/-
  What the vehicle knows about itself.

  The engine estimates nothing. Attitude, position and the pilot's sticks are read
  from the flight stack, and a `Vehicle` is one such reading.
-/
namespace GimbalLink

/-- An orientation in degrees. -/
structure Angles where
  roll : Binary32
  pitch : Binary32
  yaw : Binary32
  deriving DecidableEq, Inhabited

def Angles.zero : Angles := ⟨.zero, .zero, .zero⟩

/-- A rotation. -/
structure Quaternion where
  w : Binary32
  x : Binary32
  y : Binary32
  z : Binary32
  deriving DecidableEq, Inhabited

/-- A velocity over ground in metres per second. -/
structure Velocity where
  north : Binary32
  east : Binary32
  down : Binary32
  deriving DecidableEq, Inhabited

/-- A place, in units of 1e-7 degrees and centimetres. -/
structure Location where
  latitude : Int32
  longitude : Int32
  altitude : Int32
  deriving DecidableEq, Inhabited

/-- Quality of the satellite fix. -/
inductive Fix where
  | none
  | twoD
  | threeD
  deriving DecidableEq, Repr

/-- The fix tells a position. -/
def Fix.hasPosition : Fix → Bool
  | none => false
  | twoD => true
  | threeD => true

/-- The fix tells an altitude too. -/
def Fix.hasAltitude : Fix → Bool
  | none => false
  | twoD => false
  | threeD => true

/-- One reading of the flight stack. -/
structure Vehicle where
  /-- Pulse widths of the pilot's channels, where one is received. -/
  channels : List (Option UInt16)
  /-- The target derived from the pilot's sticks. -/
  stabilized : Angles
  fix : Fix
  location : Option Location
  /-- Body to north-east-down. -/
  attitude : Quaternion
  velocity : Option Velocity
  /-- The attitude estimate is healthy. -/
  healthy : Bool
  initialised : Bool
  /-- The estimate of horizontal velocity is valid. -/
  horizontalVelocity : Bool
  armed : Bool

namespace Vehicle

/-- The pulse width of a channel, counted from zero. -/
def channel (v : Vehicle) (index : Nat) : Option UInt16 := (v.channels[index]?).join

/-- The pulse width of an assigned channel. Assignments count from one; zero assigns
none. -/
def assigned (v : Vehicle) (assignment : UInt8) : Option UInt16 :=
  if assignment = 0 then none else v.channel (assignment.toNat - 1)

end Vehicle

end GimbalLink
