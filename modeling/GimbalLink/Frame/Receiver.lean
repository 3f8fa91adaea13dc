import GimbalLink.Frame.Basic
/-
  Receiving frames a byte at a time.

  A receiver moves through the phases of one frame and holds at most one complete
  frame. A phase carries exactly what has been received in it, so nothing stale can
  be read. A frame that turns out bad sends the receiver back to idle; a complete
  one stays until it is taken, and further bytes are dropped until `reset`.

  What is proved: a receiver that holds a frame, or has handed one out, drops every
  byte (`feed_ready`, `feed_consumed`), it comes to hold one just with the byte that
  completes it (`isReady_feed`), hands it out once (`take_of_not_ready`, `isReady_take`),
  and after a reset it is as it was made (`reset_eq_ofFilter`).
-/
namespace GimbalLink

/-- Which start bytes open a frame. -/
inductive StartFilter where
  /-- Only the gimbal's own. -/
  | device
  | any
  deriving DecidableEq, Repr

/-- The start byte, if this byte is one that opens a frame. -/
def StartFilter.accept (filter : StartFilter) (b : UInt8) : Option StartByte :=
  match filter with
  | any => StartByte.ofByte? b
  | device => (StartByte.ofByte? b).filter (· = .device)

/-- What has been received of a frame. -/
inductive Phase where
  /-- Waiting for a start byte. -/
  | idle
  | awaitLength (start : StartByte)
  | awaitCommand (start : StartByte) (length : UInt8)
  /-- Collecting the payload and the checksum behind it. -/
  | awaitPayload (start : StartByte) (length command : UInt8) (body : Bytes)
  /-- A verified frame waits to be taken. -/
  | ready (frame : Frame)
  /-- The frame has been taken. -/
  | consumed
  deriving DecidableEq

structure Receiver where
  filter : StartFilter
  phase : Phase
  deriving DecidableEq

/-- What a byte did. -/
inductive Reception where
  /-- The byte was dropped, or more are needed. -/
  | more
  /-- The byte completed a frame. -/
  | complete
  /-- The byte showed the frame in progress to be bad. -/
  | rejected (error : FrameError)
  deriving DecidableEq, Repr

namespace Receiver

/-- Room for a payload and its checksum. -/
def bufferSize : Nat := 96

def ofFilter (filter : StartFilter) : Receiver := ⟨filter, .idle⟩

/-- A receiver of the gimbal's answers. -/
def new : Receiver := ofFilter .device

def isReady (r : Receiver) : Bool :=
  match r.phase with
  | .ready _ => true
  | _ => false

def reset (r : Receiver) : Receiver := { r with phase := .idle }

/-- Judges a collected body: its last two bytes must be the checksum of what stands
before them. -/
def verify (start : StartByte) (length command : UInt8) (body : Bytes) : Phase × Reception :=
  let payload := body.take length.toNat
  let received := UInt16.ofNat (leValue ((body.drop length.toNat).take checksumSize))
  if received = Frame.checksumOf length command payload then
    match Frame.make start command payload with
    | .ok frame => (.ready frame, .complete)
    | .error e => (.idle, .rejected e)
  else (.idle, .rejected .checksumMismatch)

/-- One byte more in a phase. -/
def advance (filter : StartFilter) (phase : Phase) (b : UInt8) : Phase × Reception :=
  match phase with
  | .idle =>
    match filter.accept b with
    | some start => (.awaitLength start, .more)
    | none => (.idle, .more)
  | .awaitLength start =>
    if bufferSize < b.toNat + checksumSize then (.idle, .rejected .overflow)
    else (.awaitCommand start b, .more)
  | .awaitCommand start length => (.awaitPayload start length b [], .more)
  | .awaitPayload start length command body =>
    if bufferSize ≤ body.length then (.idle, .rejected .overflow)
    else
      let body := body ++ [b]
      if body.length < length.toNat + checksumSize then
        (.awaitPayload start length command body, .more)
      else verify start length command body
  | .ready frame => (.ready frame, .more)
  | .consumed => (.consumed, .more)

def feed (r : Receiver) (b : UInt8) : Receiver × Reception :=
  let next := advance r.filter r.phase b
  ({ r with phase := next.1 }, next.2)

/-- Feeds bytes up to the first completed or rejected frame. The answer is how many
bytes it took to complete one, or nothing if the bytes ended first. -/
def feedUntil (r : Receiver) : Bytes → Receiver × Except FrameError (Option Nat)
  | [] => (r, .ok none)
  | b :: rest =>
    match r.feed b with
    | (r, .complete) => (r, .ok (some 1))
    | (r, .rejected e) => (r, .error e)
    | (r, .more) =>
      match r.feedUntil rest with
      | (r, .ok n) => (r, .ok (n.map (· + 1)))
      | (r, .error e) => (r, .error e)

/-- Hands out the frame that waits, once. -/
def take (r : Receiver) : Receiver × Option Frame :=
  match r.phase with
  | .ready frame => ({ r with phase := .consumed }, some frame)
  | _ => (r, none)

/-! ## Operations -/

/-- A use of a receiver. -/
inductive Operation where
  | feed (b : UInt8)
  | feedUntil (bs : Bytes)
  | take
  | reset
  deriving DecidableEq

inductive Outcome where
  | fed (reception : Reception)
  | fedUntil (result : Except FrameError (Option Nat))
  | taken (frame : Option Frame)
  | done

def perform (r : Receiver) : Operation → Receiver × Outcome
  | .feed b =>
    let (r, reception) := r.feed b
    (r, .fed reception)
  | .feedUntil bs =>
    let (r, result) := r.feedUntil bs
    (r, .fedUntil result)
  | .take =>
    let (r, frame) := r.take
    (r, .taken frame)
  | .reset => (r.reset, .done)

theorem feed_ready (filter : StartFilter) (frame : Frame) (b : UInt8) :
    feed ⟨filter, .ready frame⟩ b = (⟨filter, .ready frame⟩, .more) := rfl

theorem feed_consumed (filter : StartFilter) (b : UInt8) :
    feed ⟨filter, .consumed⟩ b = (⟨filter, .consumed⟩, .more) := rfl

/-- A receiver without a frame has one after a byte just if the byte completes it. -/
theorem isReady_feed {r : Receiver} (h : r.isReady = false) (b : UInt8) :
    (r.feed b).1.isReady = true ↔ (r.feed b).2 = .complete := by
  obtain ⟨filter, phase⟩ := r
  cases phase with
  | ready frame => cases h
  | idle =>
    simp only [feed, advance]
    cases filter.accept b <;> simp [isReady]
  | awaitLength start =>
    simp only [feed, advance]
    split <;> simp [isReady]
  | awaitPayload start length command body =>
    simp only [feed, advance]
    split
    · simp [isReady]
    · split
      · simp [isReady]
      · unfold verify
        dsimp only
        split
        · split <;> simp [isReady]
        · simp [isReady]
  | _ => simp [feed, advance, isReady]

theorem take_of_not_ready {r : Receiver} (h : r.isReady = false) : r.take = (r, none) := by
  obtain ⟨filter, phase⟩ := r
  cases phase with
  | ready frame => cases h
  | _ => rfl

theorem isReady_take (r : Receiver) : r.take.1.isReady = false := by
  obtain ⟨filter, phase⟩ := r
  cases phase <;> rfl

theorem reset_eq_ofFilter (r : Receiver) : r.reset = ofFilter r.filter := rfl

end Receiver

end GimbalLink
