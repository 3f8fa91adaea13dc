import GimbalLink.Proofs.Channel.Sending
/-
  Receiving on a serial link.

  A link reads some of the bytes that wait and then takes a frame, if one is complete. A
  receiver holds the first frame that is completed and drops all bytes behind it, so what
  is taken is the first frame of the stream that was read. It is found as `tokenize` finds
  it: what is bad is left behind, and the search goes on after it.

  What is proved:
    1. `Receiver.take_run_feed`: fed a stream, a receiver holds the first frame that an
       owner would be handed who takes each one.
    2. `Link.receive_eq`: what a link with a new receiver reads and takes, and what it
       leaves.
    3. `firstFrame_toBytes`: a frame of the gimbal at the front of the stream is the first.
-/
namespace GimbalLink

/-- The frame that an event brings. -/
def Event.frame? : Event → Option Frame
  | completed frame => frame
  | rejected _ => none

/-- The first frame among some events. -/
def firstCompleted (events : List (Option Event)) : Option Frame :=
  events.findSome? fun event => event.bind Event.frame?

/-- The first valid frame of the gimbal in a stream. -/
def firstFrame (bs : Bytes) : Option Frame := firstCompleted (tokenize .device bs)

theorem firstCompleted_none (rest : List (Option Event)) :
    firstCompleted (none :: rest) = firstCompleted rest := rfl

theorem firstCompleted_rejected (e : FrameError) (rest : List (Option Event)) :
    firstCompleted (some (.rejected e) :: rest) = firstCompleted rest := rfl

theorem firstCompleted_completed (f : Frame) (rest : List (Option Event)) :
    firstCompleted (some (.completed (some f)) :: rest) = some f := rfl

theorem firstCompleted_replicate_append (n : Nat) (rest : List (Option Event)) :
    firstCompleted (List.replicate n none ++ rest) = firstCompleted rest := by
  induction n with
  | zero => rfl
  | succ n ih => exact ih

theorem firstFrame_toBytes {f : Frame} (h : f.start = .device) (rest : Bytes) :
    firstFrame (f.toBytes ++ rest) = some f := by
  have ha : StartFilter.device.accept f.start.toByte = some f.start := by
    rw [h]
    rfl
  rw [firstFrame, tokenize_toBytes f ha, firstCompleted_replicate_append, firstCompleted_completed]

/-- A link reads more in one pass than the longest frame. -/
theorem firstFrame_take_toBytes {f : Frame} (h : f.start = .device) (rest : Bytes) :
    firstFrame ((f.toBytes ++ rest).take Link.drainLimit) = some f := by
  have hf : f.toBytes.length ≤ Link.drainLimit := by
    rw [f.length_toBytes]
    exact Nat.le_trans f.size_le (by decide)
  rw [List.take_append, List.take_of_length_le hf]
  exact firstFrame_toBytes h _

/-- What opens no frame is left behind. -/
theorem firstFrame_skip {b : UInt8} (h : StartFilter.device.accept b = none) (rest : Bytes) :
    firstFrame (b :: rest) = firstFrame rest := by
  rw [firstFrame, tokenize_skip h, firstCompleted_none]
  rfl

/-! ## Through a receiver -/

namespace Receiver

variable {filter : StartFilter}

theorem filter_take (r : Receiver) : r.take.1.filter = r.filter := by
  unfold take
  split <;> rfl

theorem run_feed_ready (frame : Frame) (bs : Bytes) :
    (run feed ⟨filter, .ready frame⟩ bs).1 = ⟨filter, .ready frame⟩ := by
  induction bs with
  | nil => rfl
  | cons b rest ih => exact ih

/-- A receiver keeps the first frame for its owner. One who takes each frame as it is
completed is handed this one first. -/
theorem take_run_feed {r : Receiver} (h : r.isReady = false) (bs : Bytes) :
    (run feed r bs).1.take.2 = firstCompleted (run serve r bs).2 := by
  -- Up to the first frame both owners have the same receiver; behind it the one who
  -- waits has this frame, whatever comes.
  induction bs generalizing r with
  | nil => exact congrArg Prod.snd (take_of_not_ready h)
  | cons b rest ih =>
    have hr := isReady_feed h b
    cases hf : r.feed b with | mk next reception =>
    rw [hf] at hr
    have hwaits (hne : reception ≠ .complete) : next.isReady = false :=
      Bool.eq_false_iff.2 fun hn => hne (hr.1 hn)
    cases reception with
    | more =>
      simp only [run, serve, hf, firstCompleted_none]
      exact ih (hwaits (by simp))
    | rejected e =>
      simp only [run, serve, hf, firstCompleted_rejected]
      exact ih (hwaits (by simp))
    | complete =>
      have hn : next.isReady = true := hr.2 rfl
      obtain ⟨filter, phase⟩ := next
      cases phase with
      | ready frame =>
        simp only [run, serve, hf, run_feed_ready]
        rfl
      | _ => cases hn

theorem take_run_new (bs : Bytes) : (run feed .new bs).1.take.2 = firstFrame bs := by
  rw [take_run_feed rfl bs, firstFrame]
  congr 1
  exact (tokenize_append_of_opens .nothing bs).symm

end Receiver

/-! ## On a link -/

namespace Link

variable {l : Link} {p : Port}

theorem receiver_drain (n : Nat) (h : l.channel = .serial p) :
    (drain n l).receiver = (run Receiver.feed l.receiver (p.rx.take n)).1 := by
  induction n generalizing l p with
  | zero => rfl
  | succ n ih =>
    obtain ⟨tx, rx, limit⟩ := p
    cases rx with
    | nil => simp only [drain, h, Channel.read, Port.read, List.head?_nil, List.take_nil, run]
    | cons b rest =>
      simp only [drain, h, Channel.read, Port.read, List.head?_cons, List.tail_cons,
        List.take_succ_cons, run]
      exact @ih ⟨.serial ⟨tx, rest, limit⟩, (l.receiver.feed b).1⟩ _ rfl

theorem filter_drain (n : Nat) (l : Link) : (drain n l).receiver.filter = l.receiver.filter := by
  induction n generalizing l with
  | zero => rfl
  | succ n ih =>
    unfold drain
    split
    · rfl
    · exact ih _

theorem filter_receive (l : Link) : l.receive.1.receiver.filter = l.receiver.filter :=
  (Receiver.filter_take _).trans (filter_drain _ l)

/-- Reading leaves behind what is above the limit. -/
theorem receive_on (h : l.On p) :
    l.receive.1.On { p with rx := p.rx.drop drainLimit } :=
  ⟨channel_drain drainLimit h.channel_eq, h.bounded.tx_le, h.bounded.limit_le⟩

/-- A link whose receiver is new takes the first frame of what it reads. -/
theorem receive_eq (h : l.On p) (hr : l.receiver = .new) :
    l.receive.2 = firstFrame (p.rx.take drainLimit) := by
  show (drain drainLimit l).receiver.take.2 = _
  rw [receiver_drain drainLimit h.channel_eq, hr, Receiver.take_run_new]

/-- A flush leaves a new receiver and nothing to read. -/
theorem flush_on (h : l.On p) : l.flush.On { p with rx := [] } := by
  refine ⟨?_, h.bounded.tx_le, h.bounded.limit_le⟩
  rw [flush, h.channel_eq]
  show discard p.rx.length (.serial p) = _
  rw [discard_serial, List.drop_length]

end Link

end GimbalLink
