import GimbalLink.Flags
import GimbalLink.Navigation
/-
  Settings of the mount: how it points by default, its fixed orientations, the
  pilot's channel assignments and the feature switches.

  What is proved: a mode's number reads back as the mode, unless the mode is an
  unsupported one whose number belongs to another (`ofNumber_number`).
-/
namespace GimbalLink

/-- How the gimbal is pointed. -/
inductive Mode where
  /-- Held in the retracted orientation. -/
  | retract
  /-- Held in the neutral orientation. -/
  | neutral
  /-- At angles given by the ground station. -/
  | external
  /-- By the pilot's sticks. -/
  | manual
  /-- At a place. -/
  | position
  /-- A mode number that nothing is known about. -/
  | unsupported (number : UInt8)
  deriving DecidableEq, Repr, Inhabited

namespace Mode

def ofNumber (n : UInt8) : Mode :=
  if n = 0 then retract
  else if n = 1 then neutral
  else if n = 2 then external
  else if n = 3 then manual
  else if n = 4 then position
  else unsupported n

def number : Mode → UInt8
  | retract => 0
  | neutral => 1
  | external => 2
  | manual => 3
  | position => 4
  | unsupported n => n

/-- The mode holds a fixed orientation. -/
def isFixed : Mode → Bool
  | retract => true
  | neutral => true
  | _ => false

theorem number_ofNumber (n : UInt8) : (ofNumber n).number = n := by
  unfold ofNumber
  repeat' split
  all_goals first | rfl | simp only [number, *]

theorem ofNumber_number {m : Mode} (h : ∀ n, m = unsupported n → 4 < n) :
    ofNumber m.number = m := by
  cases m with
  | unsupported n =>
    have hn := UInt8.lt_iff_toNat_lt.1 (h n rfl)
    have hne (k : UInt8) (hk : k.toNat ≤ 4) : n ≠ k := by
      rintro rfl
      exact absurd hn (Nat.not_lt.2 hk)
    simp [number, ofNumber, hne 0 (by decide), hne 1 (by decide), hne 2 (by decide),
      hne 3 (by decide), hne 4 (by decide)]
  | _ => rfl

end Mode

/-- Feature switches. -/
abbrev Features := FlagSet (0x000f#16)

namespace Features

/-- Send the status broadcast. -/
def broadcast : Features := ⟨0x0001#16⟩

/-- Forward the pilot's channels. -/
def inputs : Features := ⟨0x0002#16⟩

/-- Point by raw pulses instead of stabilised angles under the pilot's sticks. -/
def rawPulses : Features := ⟨0x0004#16⟩

/-- Forward camera triggers. -/
def camera : Features := ⟨0x0008#16⟩

def standard : Features := (broadcast.union inputs).union camera

end Features

/-- The pilot's channel for each axis, counted from one; zero assigns none. -/
structure Assignments where
  roll : UInt8
  tilt : UInt8
  pan : UInt8
  deriving DecidableEq, Inhabited

/-- The assignments in the order in which they are looked at. -/
def Assignments.toList (a : Assignments) : List UInt8 := [a.tilt, a.roll, a.pan]

structure Settings where
  /-- The mode at the start. -/
  defaultMode : Mode
  retractAngles : Angles
  neutralAngles : Angles
  assignments : Assignments
  features : Features
  /-- How long to look for the gimbal, in milliseconds; zero is for ever. -/
  searchLimit : UInt32
  /-- The gimbal's node on the bus. -/
  busNode : UInt8
  /-- The place to point at before another is given. -/
  interest : Option Location
  deriving DecidableEq

/-- The search limit where nothing else is set: a minute and a half. -/
def defaultSearchLimit : UInt32 := 90000

def defaultBusNode : UInt8 := 71

namespace Settings

def standard : Settings where
  defaultMode := .retract
  retractAngles := .zero
  neutralAngles := .zero
  assignments := ⟨0, 0, 0⟩
  features := .standard
  searchLimit := defaultSearchLimit
  busNode := defaultBusNode
  interest := none

instance : Inhabited Settings := ⟨standard⟩

end Settings

end GimbalLink
