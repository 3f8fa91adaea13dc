import GimbalLink.Binary32.Circular
import GimbalLink.Message.Answer
/-
  What is known of the gimbal: its orientation and whether it is armed.

  Both channels feed it. Angles are kept in the flight stack's sign convention.
  Two marks are raised by news and lowered when somebody takes them: one for the
  orientation, one for the armed state.

  What is proved: the armed state is taken over, and a notice falls due if it is another one
  (`setArmed_eq`); a mark is down after it was taken (`takeUpdate_takeUpdate`,
  `takeNotice_takeNotice`).
-/
namespace GimbalLink

/-- The gimbal's orientation in degrees. -/
structure Orientation where
  pitch : Binary32
  roll : Binary32
  yaw : Binary32
  deriving DecidableEq, Inhabited

def Orientation.zero : Orientation := ⟨.zero, .zero, .zero⟩

/-- An orientation in whole hundredths of a degree. -/
structure MountStatus where
  pitch : Int32
  roll : Int32
  yaw : Int32
  deriving DecidableEq

/-- Hundred. -/
def Binary32.hundred : Binary32 := ⟨0x42c80000⟩

def Orientation.toMountStatus (o : Orientation) : MountStatus :=
  ⟨(o.pitch * .hundred).toInt32, (o.roll * .hundred).toInt32, (o.yaw * .hundred).toInt32⟩

/-- A status that the gimbal broadcasts on the bus, in radians. -/
structure BusStatus where
  mode : UInt8
  attitude : Quaternion
  roll : Binary32
  pitch : Binary32
  yaw : Binary32
  deriving DecidableEq, Inhabited

/-- A live attitude in the flight stack's sign convention. -/
def LiveAttitude.orientation (a : LiveAttitude) : Orientation := ⟨-a.pitch, a.roll, -a.yaw⟩

def BusStatus.orientation (s : BusStatus) : Orientation :=
  ⟨s.pitch.toDegrees, s.roll.toDegrees, s.yaw.toDegrees⟩

structure Telemetry where
  orientation : Orientation
  /-- The orientation has not been taken since it was last applied. -/
  fresh : Bool
  armed : Bool
  /-- The armed state is to be announced. -/
  notice : Bool
  deriving DecidableEq

namespace Telemetry

def new : Telemetry := ⟨.zero, false, false, false⟩

def setOrientation (t : Telemetry) (o : Orientation) : Telemetry :=
  { t with orientation := o, fresh := true }

/-- A change of the armed state calls for a notice. -/
def setArmed (t : Telemetry) (armed : Bool) : Telemetry :=
  if armed = t.armed then t else { t with armed, notice := true }

/-- Applies live data, if it answers the request of the cycle, and tells whether it
does. -/
def applyLive (t : Telemetry) (d : LiveData) : Telemetry × Bool :=
  if d.flags = LiveFields.request then
    let t := (d.attitude.map fun a => t.setOrientation a.orientation).getD t
    let t := (d.status.map fun s => t.setArmed s.isNormal).getD t
    (t, true)
  else (t, false)

def applyBus (t : Telemetry) (s : BusStatus) : Telemetry := t.setOrientation s.orientation

/-- The orientation, if it was applied since the last time it was taken. -/
def takeUpdate (t : Telemetry) : Telemetry × Option Orientation :=
  ({ t with fresh := false }, if t.fresh then some t.orientation else none)

/-- Has the armed state announced again. -/
def requestNotice (t : Telemetry) : Telemetry := { t with notice := true }

/-- Whether the armed state is to be announced; the mark is lowered. -/
def takeNotice (t : Telemetry) : Telemetry × Bool := ({ t with notice := false }, t.notice)

/-! ## Operations -/

/-- A use of the telemetry. -/
inductive Operation where
  | live (data : LiveData)
  | bus (status : BusStatus)
  | takeUpdate
  | requestNotice
  | takeNotice
  deriving DecidableEq

inductive Outcome where
  /-- Live data was applied or not. -/
  | applied (b : Bool)
  | update (o : Option Orientation)
  | notice (b : Bool)
  | done
  deriving DecidableEq

def perform (t : Telemetry) : Operation → Telemetry × Outcome
  | .live data =>
    let (t, applied) := t.applyLive data
    (t, .applied applied)
  | .bus status => (t.applyBus status, .done)
  | .takeUpdate =>
    let (t, o) := t.takeUpdate
    (t, .update o)
  | .requestNotice => (t.requestNotice, .done)
  | .takeNotice =>
    let (t, notice) := t.takeNotice
    (t, .notice notice)

theorem setArmed_eq (t : Telemetry) (armed : Bool) :
    t.setArmed armed = { t with armed, notice := armed ≠ t.armed || t.notice } := by
  by_cases h : armed = t.armed
  · subst h
    simp [setArmed]
  · simp [setArmed, h]

theorem takeUpdate_takeUpdate (t : Telemetry) : t.takeUpdate.1.takeUpdate.2 = none := rfl

theorem takeNotice_takeNotice (t : Telemetry) : t.takeNotice.1.takeNotice.2 = false := rfl

end Telemetry

end GimbalLink
