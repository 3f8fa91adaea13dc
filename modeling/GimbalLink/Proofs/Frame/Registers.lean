import GimbalLink.Frame.Receiver
import GimbalLink.Run
/-
  A receiver that keeps its registers.

  In a small device a receiver is a state and a few registers: the start byte, the length,
  the command and a buffer. A state uses some of them and leaves in the others what was
  there before, and a reset, which comes in any state, leaves the start byte of the last
  frame. A `Phase` has only what was received in it, so nothing stale can be seen in a
  `Receiver`. Here the same is shown of the registers.

  `view` tells what the registers mean in their state. It is right as long as the length
  fits the buffer wherever the length is used (`Fits`).

  What is proved:
    1. `perform_refines`: each use of the registers is that of the receiver in view.
    2. `run_reset`: reset from any contents at all, the registers answer every use as a
       receiver that was just made.
-/
namespace GimbalLink

/-- The states of a receiver without the data. -/
inductive ReceiveState where
  | idle
  | awaitLength
  | awaitCommand
  | awaitPayload
  | ready
  | consumed

structure Registers where
  filter : StartFilter
  state : ReceiveState
  start : StartByte
  length : UInt8
  command : UInt8
  buffer : Bytes

namespace Registers

/-- Goes back to idle; the start byte stays. -/
def reset (x : Registers) : Registers :=
  { x with state := .idle, length := 0, command := 0, buffer := [] }

/-- The checksum that was received, once the buffer holds it. -/
def received (x : Registers) : UInt16 :=
  UInt16.ofNat (leValue ((x.buffer.drop x.length.toNat).take checksumSize))

def payload (x : Registers) : Bytes := x.buffer.take x.length.toNat

/-- One byte more into the buffer, which is judged when it is complete. -/
def collect (x : Registers) (b : UInt8) : Registers × Reception :=
  if Receiver.bufferSize ≤ x.buffer.length then (x.reset, .rejected .overflow)
  else
    let x := { x with buffer := x.buffer ++ [b] }
    if x.buffer.length < x.length.toNat + checksumSize then (x, .more)
    else if x.received = Frame.checksumOf x.length x.command x.payload then
      ({ x with state := .ready }, .complete)
    else (x.reset, .rejected .checksumMismatch)

def feed (x : Registers) (b : UInt8) : Registers × Reception :=
  match x.state with
  | .idle =>
    match x.filter.accept b with
    | some start => ({ x with start, state := .awaitLength }, .more)
    | none => (x, .more)
  | .awaitLength =>
    if Receiver.bufferSize < b.toNat + checksumSize then (x.reset, .rejected .overflow)
    else ({ x with length := b, state := .awaitCommand }, .more)
  | .awaitCommand => ({ x with command := b, buffer := [], state := .awaitPayload }, .more)
  | .awaitPayload => x.collect b
  | .ready => (x, .more)
  | .consumed => (x, .more)

def feedUntil (x : Registers) : Bytes → Registers × Except FrameError (Option Nat)
  | [] => (x, .ok none)
  | b :: rest =>
    match x.feed b with
    | (x, .complete) => (x, .ok (some 1))
    | (x, .rejected e) => (x, .error e)
    | (x, .more) =>
      match x.feedUntil rest with
      | (x, .ok n) => (x, .ok (n.map (· + 1)))
      | (x, .error e) => (x, .error e)

/-- The frame that the registers make up. -/
def frame? (x : Registers) : Option Frame := (Frame.make x.start x.command x.payload).toOption

def take (x : Registers) : Registers × Option Frame :=
  match x.state with
  | .ready => ({ x with state := .consumed }, x.frame?)
  | _ => (x, none)

def perform (x : Registers) : Receiver.Operation → Registers × Receiver.Outcome
  | .feed b =>
    let (x, reception) := x.feed b
    (x, .fed reception)
  | .feedUntil bs =>
    let (x, result) := x.feedUntil bs
    (x, .fedUntil result)
  | .take =>
    let (x, frame) := x.take
    (x, .taken frame)
  | .reset => (x.reset, .done)

/-! ## What the registers mean -/

def phase (x : Registers) : Phase :=
  match x.state with
  | .idle => .idle
  | .awaitLength => .awaitLength x.start
  | .awaitCommand => .awaitCommand x.start x.length
  | .awaitPayload => .awaitPayload x.start x.length x.command x.buffer
  | .ready => x.frame?.elim .idle .ready
  | .consumed => .consumed

def view (x : Registers) : Receiver := ⟨x.filter, x.phase⟩

/-- Where the length is used, it leaves room for the checksum. -/
def Fits (x : Registers) : Prop :=
  match x.state with
  | .awaitCommand | .awaitPayload | .ready => x.length.toNat + checksumSize ≤ Receiver.bufferSize
  | _ => True

variable {x : Registers}

theorem fits_reset (x : Registers) : x.reset.Fits := trivial

theorem view_reset (x : Registers) : x.reset.view = .ofFilter x.filter := rfl

section
variable (h : x.length.toNat + checksumSize ≤ Receiver.bufferSize)
include h

/-- A length that fits makes a frame. -/
theorem make_payload : ∃ f, Frame.make x.start x.command x.payload = .ok f := by
  have hp : x.payload.length ≤ maxPayload := by
    rw [payload, List.length_take]
    simp only [checksumSize, Receiver.bufferSize, maxPayload] at *
    omega
  exact ⟨_, dif_pos hp⟩

theorem frame?_eq_some : ∃ f, x.frame? = some f := by
  obtain ⟨f, hf⟩ := make_payload h
  exact ⟨f, congrArg Except.toOption hf⟩

theorem verify_registers :
    Receiver.verify x.start x.length x.command x.buffer =
      if x.received = Frame.checksumOf x.length x.command x.payload then
        (x.frame?.elim .idle .ready, .complete)
      else (.idle, .rejected .checksumMismatch) := by
  obtain ⟨f, hf⟩ := make_payload h
  have hv : Frame.make x.start x.command (x.buffer.take x.length.toNat) = .ok f := hf
  rw [frame?, hf, Receiver.verify]
  simp only [hv]
  rfl

theorem collect_refines (hs : x.state = .awaitPayload) (b : UInt8) :
    (x.collect b).1.Fits ∧
      Receiver.feed x.view b = ((x.collect b).1.view, (x.collect b).2) := by
  have hv : x.view = ⟨x.filter, .awaitPayload x.start x.length x.command x.buffer⟩ := by
    rw [view, phase, hs]
  rw [hv, collect, Receiver.feed]
  simp only [Receiver.advance]
  by_cases hb : Receiver.bufferSize ≤ x.buffer.length
  · simp only [if_pos hb]
    exact ⟨trivial, rfl⟩
  · simp only [if_neg hb]
    by_cases hl : (x.buffer ++ [b]).length < x.length.toNat + checksumSize
    · simp only [if_pos hl]
      refine ⟨?_, ?_⟩
      · simpa only [Fits, hs] using h
      · simp only [view, phase, hs]
    · -- The buffer is complete, with the byte in it; both judge the same two parts of it.
      simp only [if_neg hl]
      have hj := @verify_registers { x with buffer := x.buffer ++ [b] } h
      simp only at hj
      rw [hj]
      split
      · exact ⟨h, rfl⟩
      · exact ⟨trivial, rfl⟩

end

theorem view_ready (h : x.Fits) (hs : x.state = .ready) :
    ∃ f, x.frame? = some f ∧ x.view = ⟨x.filter, .ready f⟩ := by
  rw [Fits, hs] at h
  obtain ⟨f, hf⟩ := frame?_eq_some h
  refine ⟨f, hf, ?_⟩
  rw [view, phase, hs, hf]
  rfl

theorem feed_refines (h : x.Fits) (b : UInt8) :
    (x.feed b).1.Fits ∧ Receiver.feed x.view b = ((x.feed b).1.view, (x.feed b).2) := by
  rw [feed]
  cases hs : x.state with
  | idle =>
    have hv : x.view = ⟨x.filter, .idle⟩ := by rw [view, phase, hs]
    rw [hv, Receiver.feed]
    simp only [Receiver.advance]
    cases x.filter.accept b with
    | none => exact ⟨h, Prod.ext hv.symm rfl⟩
    | some start => exact ⟨trivial, rfl⟩
  | awaitLength =>
    have hv : x.view = ⟨x.filter, .awaitLength x.start⟩ := by rw [view, phase, hs]
    rw [hv, Receiver.feed]
    simp only [Receiver.advance]
    by_cases hb : Receiver.bufferSize < b.toNat + checksumSize
    · simp only [if_pos hb]
      exact ⟨trivial, rfl⟩
    · simp only [if_neg hb]
      exact ⟨Nat.not_lt.1 hb, rfl⟩
  | awaitCommand =>
    have hv : x.view = ⟨x.filter, .awaitCommand x.start x.length⟩ := by rw [view, phase, hs]
    rw [Fits, hs] at h
    rw [hv]
    exact ⟨h, rfl⟩
  | awaitPayload =>
    rw [Fits, hs] at h
    exact collect_refines h hs b
  | ready =>
    obtain ⟨f, -, hv⟩ := view_ready h hs
    exact ⟨h, hv ▸ Receiver.feed_ready x.filter f b⟩
  | consumed =>
    have hv : x.view = ⟨x.filter, .consumed⟩ := by rw [view, phase, hs]
    exact ⟨h, hv ▸ Receiver.feed_consumed x.filter b⟩

theorem feedUntil_refines (h : x.Fits) (bs : Bytes) :
    (x.feedUntil bs).1.Fits ∧
      Receiver.feedUntil x.view bs = ((x.feedUntil bs).1.view, (x.feedUntil bs).2) := by
  induction bs generalizing x with
  | nil => exact ⟨h, rfl⟩
  | cons b rest ih =>
    obtain ⟨hf, hv⟩ := feed_refines h b
    rw [feedUntil, Receiver.feedUntil, hv]
    generalize x.feed b = fed at hf
    obtain ⟨y, reception⟩ := fed
    cases reception with
    | complete => exact ⟨hf, rfl⟩
    | rejected e => exact ⟨hf, rfl⟩
    | more =>
      obtain ⟨hr, hy⟩ := ih hf
      simp only [hy]
      generalize y.feedUntil rest = fed at hr
      obtain ⟨z, result⟩ := fed
      cases result <;> exact ⟨hr, rfl⟩

theorem take_refines (h : x.Fits) :
    x.take.1.Fits ∧ Receiver.take x.view = (x.take.1.view, x.take.2) := by
  rw [take]
  cases hs : x.state with
  | ready =>
    obtain ⟨f, hx, hv⟩ := view_ready h hs
    rw [hv, hx]
    exact ⟨trivial, rfl⟩
  | _ =>
    refine ⟨h, ?_⟩
    simp only [view, phase, hs, Receiver.take]

theorem perform_refines (h : x.Fits) (op : Receiver.Operation) :
    (x.perform op).1.Fits ∧
      Receiver.perform x.view op = ((x.perform op).1.view, (x.perform op).2) := by
  cases op with
  | feed b =>
    obtain ⟨hf, hv⟩ := feed_refines h b
    simp only [perform, Receiver.perform, hv]
    exact ⟨hf, trivial⟩
  | feedUntil bs =>
    obtain ⟨hf, hv⟩ := feedUntil_refines h bs
    simp only [perform, Receiver.perform, hv]
    exact ⟨hf, trivial⟩
  | take =>
    obtain ⟨hf, hv⟩ := take_refines h
    simp only [perform, Receiver.perform, hv]
    exact ⟨hf, trivial⟩
  | reset => exact ⟨x.fits_reset, rfl⟩

/-- What is stale in the registers after a reset is never seen. -/
theorem run_reset (x : Registers) (ops : List Receiver.Operation) :
    (run perform x.reset ops).2 = (run Receiver.perform (.ofFilter x.filter) ops).2 := by
  have step (y : Registers) (op : Receiver.Operation) (hy : y.Fits) :
      (y.perform op).1.Fits ∧
        Receiver.perform y.view op = ((y.perform op).1.view, (y.perform op).2) :=
    perform_refines hy op
  obtain ⟨-, hr⟩ := run_refines view step x.fits_reset ops
  rw [← x.view_reset, hr]

end Registers

end GimbalLink
