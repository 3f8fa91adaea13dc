import GimbalLink.Pointing.Bearing
import GimbalLink.Pointing.Target
/-
  The pointer: which target holds in this cycle, and what is sent for it.

  A mode that gives no target now leaves the last one in place. While the pilot's
  link is lost, the target handed out is the neutral one of its kind; the one that
  is kept is not touched.

  A fixed mode sends a recentre once, when it is entered, and nothing while it is
  held; every other mode sends its target each time.

  What is proved: handing out an aim does not depend on the failsafe but in its
  target (`resolve_state`).
-/
namespace GimbalLink

/-- A shorter pulse on an assigned channel means that the pilot's link is lost. -/
def failsafePulse : UInt16 := 700

namespace Vehicle

/-- Whether an assigned channel shows that the pilot's link is lost. Channels that
are not assigned, or not received, show nothing. -/
def failsafe (v : Vehicle) (a : Assignments) : Bool :=
  a.toList.any fun i => (v.assigned i).any (· < failsafePulse)

/-- The pulse of an assigned channel, the centre where there is none. -/
def pulse (v : Vehicle) (assignment : UInt8) : UInt16 := (v.assigned assignment).getD pulseCentre

end Vehicle

structure Pointer where
  mode : Mode
  /-- The mode of the last aim that was sent. -/
  sentMode : Mode
  /-- The last target that could be resolved. -/
  last : Option Aim
  /-- What the ground station asks for. -/
  external : Angles
  /-- The place to point at. -/
  interest : Option Location
  deriving DecidableEq

namespace Pointer

def new (s : Settings) : Pointer where
  mode := s.defaultMode
  sentMode := s.defaultMode
  last := none
  external := .zero
  interest := s.interest

def setMode (p : Pointer) (mode : Mode) : Pointer := { p with mode }

def setExternal (p : Pointer) (a : Angles) : Pointer := { p with external := a }

def setInterest (p : Pointer) (l : Location) : Pointer := { p with interest := some l }

/-- The target under the pilot's sticks. -/
def manualTarget (s : Settings) (v : Vehicle) : Target :=
  if s.features.contains Features.rawPulses then
    .pulses ⟨v.pulse s.assignments.tilt, v.pulse s.assignments.roll, v.pulse s.assignments.pan⟩
  else .angles v.stabilized

/-- The target at the place to point at, if the vehicle knows where it is. -/
def positionTarget (p : Pointer) (v : Vehicle) : Option Target :=
  if v.fix.hasPosition then do
    let here ← v.location
    let there ← p.interest
    return .angles (here.anglesToward there)
  else none

/-- The target that the active mode gives now. -/
def freshTarget (p : Pointer) (s : Settings) (v : Vehicle) : Option Target :=
  match p.mode with
  | .retract => some (.angles s.retractAngles)
  | .neutral => some (.angles s.neutralAngles)
  | .external => some (.angles p.external)
  | .manual => some (manualTarget s v)
  | .position => p.positionTarget v
  | .unsupported _ => none

/-- What is kept: the fresh target, or else the last one. -/
def kept (p : Pointer) (s : Settings) (v : Vehicle) : Option Aim :=
  match p.freshTarget s v with
  | some target => some ⟨p.mode, target⟩
  | none => p.last

/-- The aim as it is handed out. -/
def guarded (s : Settings) (v : Vehicle) (aim : Aim) : Aim :=
  if v.failsafe s.assignments then { aim with target := aim.target.neutral } else aim

/-- The aim of this cycle; none only while no target was ever resolved. -/
def resolve (p : Pointer) (s : Settings) (v : Vehicle) : Pointer × Option Aim :=
  let last := p.kept s v
  ({ p with last }, last.map (guarded s v))

/-- What is sent for an aim. Entering a fixed mode counts as sent here, whether the
command goes out or not. -/
def commandFor (p : Pointer) (aim : Aim) : Pointer × Option Command :=
  ({ p with sentMode := aim.mode },
    if aim.mode.isFixed then if aim.mode = p.sentMode then none else some .recenter
    else some aim.target.toCommand)

/-- One cycle: the aim, and what is sent for it. -/
def cycle (p : Pointer) (s : Settings) (v : Vehicle) : Pointer × Option (Aim × Option Command) :=
  let (p, aim) := p.resolve s v
  match aim with
  | none => (p, none)
  | some aim =>
    let (p, command) := p.commandFor aim
    (p, some (aim, command))

/-! ## Operations -/

/-- A use of a pointer. -/
inductive Operation where
  | setMode (mode : Mode)
  | setExternal (a : Angles)
  | setInterest (l : Location)
  | resolve (v : Vehicle)
  | commandFor (aim : Aim)
  | cycle (v : Vehicle)

inductive Outcome where
  | done
  | aim (a : Option Aim)
  | command (c : Option Command)
  | cycle (c : Option (Aim × Option Command))

def perform (s : Settings) (p : Pointer) : Operation → Pointer × Outcome
  | .setMode mode => (p.setMode mode, .done)
  | .setExternal a => (p.setExternal a, .done)
  | .setInterest l => (p.setInterest l, .done)
  | .resolve v =>
    let (p, aim) := p.resolve s v
    (p, .aim aim)
  | .commandFor aim =>
    let (p, command) := p.commandFor aim
    (p, .command command)
  | .cycle v =>
    let (p, c) := p.cycle s v
    (p, .cycle c)

theorem resolve_state (p : Pointer) (s : Settings) (v : Vehicle) :
    (p.resolve s v).1 = { p with last := p.kept s v } := rfl

end Pointer

end GimbalLink
