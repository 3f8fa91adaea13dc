import GimbalLink.Timing.Clock
/-
  The search for the gimbal.

  On the serial channel a version request and a look for the answer alternate, one
  step every hundred milliseconds; on the bus the first broadcast is enough. A limit
  may end the search. Once the search has ended, either way, its state stays.

  What is proved: outside of the search no event moves the state
  (`after_of_ne_searching`).
-/
namespace GimbalLink

inductive SearchState where
  | searching
  /-- The gimbal has been found. -/
  | found
  /-- Given up, or there is no channel. -/
  | disabled
  deriving DecidableEq, Repr, Inhabited

inductive SearchEvent where
  /-- A version answer was read. -/
  | versionReceived
  /-- A broadcast was seen on a bus that is up. -/
  | broadcastReceived
  /-- The limit is reached. -/
  | timeout
  /-- There is nothing to search on. -/
  | channelMissing
  deriving DecidableEq, Repr

/-- What is to be done now. -/
inductive SearchStep where
  | idle
  /-- Drop what was received and ask for the version. -/
  | request
  /-- Look for the version answer. -/
  | await
  /-- The limit was reached just now. -/
  | timedOut
  deriving DecidableEq, Repr

/-- The least time between two steps. -/
def searchInterval : Millis := 100

/-- The state after an event. -/
def SearchState.after (s : SearchState) (e : SearchEvent) : SearchState :=
  match s with
  | searching =>
    match e with
    | .versionReceived => found
    | .broadcastReceived => found
    | .timeout => disabled
    | .channelMissing => disabled
  | found => found
  | disabled => disabled

theorem SearchState.after_of_ne_searching {s : SearchState} (h : s ≠ searching)
    (e : SearchEvent) : s.after e = s := by
  cases s with
  | searching => exact absurd rfl h
  | found => rfl
  | disabled => rfl

structure Search where
  state : SearchState
  /-- Zero for no limit. -/
  limit : Millis
  /-- When the search was first looked at. -/
  started : Option Millis
  /-- When the last step was taken. -/
  lastStep : Option Millis
  /-- The next step is a request. -/
  requestNext : Bool
  deriving DecidableEq

namespace Search

def new (limit : Millis) : Search := ⟨.searching, limit, none, none, true⟩

/-- Applies an event, and tells whether it moved the state. -/
def handle (s : Search) (e : SearchEvent) : Search × Bool :=
  let next := s.state.after e
  ({ s with state := next }, next ≠ s.state)

/-- A search without a channel. -/
def withoutChannel : Search := ((new 0).handle .channelMissing).1

/-- Whether the limit is reached at `now`, when the search began at `started`. -/
def isOver (s : Search) (started now : Millis) : Bool :=
  s.limit ≠ 0 && s.limit ≤ now.since started

/-- Applies the limit, which counts from the first time this is called. Tells whether
the search ended here. -/
def checkLimit (s : Search) (now : Millis) : Search × Bool :=
  if s.state = .searching then
    let started := s.started.getD now
    let s := { s with started := some started }
    if s.isOver started now then s.handle .timeout else (s, false)
  else (s, false)

/-- Whether a step is due: always at first, later once the interval has passed. -/
def isDue (s : Search) (now : Millis) : Bool :=
  match s.lastStep with
  | none => true
  | some last => searchInterval ≤ now.since last

/-- The step due now on the serial channel. -/
def poll (s : Search) (now : Millis) : Search × SearchStep :=
  let checked := s.checkLimit now
  let s := checked.1
  if checked.2 then (s, .timedOut)
  else if s.state = .searching && s.isDue now then
    ({ s with lastStep := some now, requestNext := !s.requestNext },
      if s.requestNext then .request else .await)
  else (s, .idle)

/-! ## Operations -/

/-- A use of a search. -/
inductive Operation where
  | poll (now : Millis)
  | checkLimit (now : Millis)
  | handle (event : SearchEvent)
  deriving DecidableEq

inductive Outcome where
  | step (s : SearchStep)
  /-- Whether the state was moved. -/
  | moved (b : Bool)
  deriving DecidableEq

def perform (s : Search) : Operation → Search × Outcome
  | .poll now =>
    let (s, step) := s.poll now
    (s, .step step)
  | .checkLimit now =>
    let (s, moved) := s.checkLimit now
    (s, .moved moved)
  | .handle event =>
    let (s, moved) := s.handle event
    (s, .moved moved)

end Search

end GimbalLink
