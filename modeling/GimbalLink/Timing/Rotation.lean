import GimbalLink.Timing.Clock
/-
  The rotation of jobs.

  Five jobs take turns, one at a time, at least ten milliseconds apart. A late turn
  is not made up for, and no job is skipped.

  What is proved: the jobs follow each other in a cycle of five (`ofIndex_add`,
  `ofIndex_index`).
-/
namespace GimbalLink

/-- What is done in one turn. -/
inductive Job where
  /-- Send the status broadcast. -/
  | broadcast
  /-- Ask for live data, and send what is sent once. -/
  | request
  /-- Resolve the target and send it. -/
  | point
  /-- Forward the pilot's channels. -/
  | inputs
  /-- Read what the gimbal sent. -/
  | receive
  deriving DecidableEq, Repr

/-- Jobs in a cycle. -/
def jobCount : Nat := 5

/-- The least time between two jobs. -/
def jobInterval : Millis := 10

namespace Job

/-- The job at a place in the cycle; places go on past its end. -/
def ofIndex (i : Nat) : Job :=
  match i % jobCount with
  | 0 => broadcast
  | 1 => request
  | 2 => point
  | 3 => inputs
  | _ => receive

def index : Job → Nat
  | broadcast => 0
  | request => 1
  | point => 2
  | inputs => 3
  | receive => 4

theorem ofIndex_add (i : Nat) : ofIndex (i + jobCount) = ofIndex i := by
  rw [ofIndex, Nat.add_mod_right]
  rfl

theorem ofIndex_index (j : Job) : ofIndex j.index = j := by cases j <;> rfl

end Job

structure Rotation where
  /-- The place in the cycle of the job that comes next. -/
  index : Nat
  /-- When the last job was handed out. -/
  last : Option Millis
  deriving DecidableEq

namespace Rotation

def new : Rotation := ⟨0, none⟩

def next (r : Rotation) : Job := .ofIndex r.index

/-- Whether a job is due: always at first, later once the interval has passed. -/
def isDue (r : Rotation) (now : Millis) : Bool :=
  match r.last with
  | none => true
  | some last => jobInterval ≤ now.since last

/-- The job due now, if there is one; the rotation moves past it. -/
def poll (r : Rotation) (now : Millis) : Rotation × Option Job :=
  if r.isDue now then (⟨(r.index + 1) % jobCount, some now⟩, some r.next) else (r, none)

/-- Starts the cycle over; the interval still counts from the last job. -/
def reset (r : Rotation) : Rotation := { r with index := 0 }

/-- A use of a rotation. -/
inductive Operation where
  | poll (now : Millis)
  | reset
  deriving DecidableEq

/-- The job that an operation hands out, if it does. -/
def perform (r : Rotation) : Operation → Rotation × Option Job
  | .poll now => r.poll now
  | .reset => (r.reset, none)

end Rotation

end GimbalLink
