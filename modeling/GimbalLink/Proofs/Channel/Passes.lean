import GimbalLink.Proofs.Channel.FrameEnds
import GimbalLink.Proofs.Frame.Corruption
/-
  Receiving in passes.

  The bytes of a serial link are read in passes, each of which reads no more than a fixed
  number of them, and they arrive between the passes as they please. A frame may begin in one
  pass and end in another, and a pass may go on reading behind its end. None of this can be
  told from what is returned: the passes together read one stream, and since the last flush
  they return its first valid frame and nothing else, from the pass that reads the last byte
  of it.

  What is proved:
    1. `Receiver.take_run_feed_taken`: a receiver that was looked at between two pieces of a
       stream goes on as if it had been fed both at once.
    2. `Link.HasRead.run`: what the passes of a run read and return, and what they leave.
    3. `Link.run_in_passes`: all of this from a link that is new or was flushed.

  The invariant is `Link.HasRead`: what a link has read so far is all that matters of how it
  did so.
-/
namespace GimbalLink

/-- A port takes a front part of what arrives, and puts it behind what waits. -/
theorem Port.rx_inject (p : Port) (bs : Bytes) :
    (p.inject bs).1.rx = p.rx ++ bs.take (p.inject bs).2 := by
  simp only [inject, List.length_take, ← List.take_eq_take_min]

namespace Receiver

variable {filter : StartFilter}

theorem run_feed_consumed (bs : Bytes) :
    run feed ⟨filter, .consumed⟩ bs = (⟨filter, .consumed⟩, List.replicate bs.length .more) := by
  induction bs with
  | nil => rfl
  | cons b rest ih => simp only [run, feed_consumed, ih, List.length_cons, List.replicate_succ]

/-- A receiver after a stream, when it has handed out what it held. -/
def taken (seen : Bytes) : Receiver := (run feed .new seen).1.take.1

theorem run_new_of_some {seen : Bytes} {f : Frame} (h : firstFrame seen = some f) :
    ∃ filter, (run feed .new seen).1 = ⟨filter, .ready f⟩ := by
  rw [← take_run_new] at h
  generalize (run feed .new seen).1 = r at h
  obtain ⟨filter, phase⟩ := r
  cases phase with
  | ready frame =>
    cases h
    exact ⟨filter, rfl⟩
  | _ => cases h

theorem taken_of_some {seen : Bytes} {f : Frame} (h : firstFrame seen = some f) :
    ∃ filter, ∀ rest, taken (seen ++ rest) = ⟨filter, .consumed⟩ := by
  obtain ⟨filter, hready⟩ := run_new_of_some h
  refine ⟨filter, fun rest => ?_⟩
  rw [taken, run_append, hready, run_feed_ready]
  rfl

theorem isSome_take (r : Receiver) : r.take.2.isSome = r.isReady := by
  obtain ⟨filter, phase⟩ := r
  cases phase <;> rfl

theorem taken_of_none {seen : Bytes} (h : firstFrame seen = none) :
    taken seen = (run feed .new seen).1 := by
  have hready : (run feed .new seen).1.isReady = false := by
    rw [← Bool.not_eq_true, ← isSome_take, take_run_new, h]
    exact nofun
  rw [taken, take_of_not_ready hready]

/-- A receiver that was looked at between two pieces of a stream goes on as if it had been fed
both at once, and it hands out what the second piece brings. -/
theorem take_run_feed_taken (seen piece : Bytes) :
    (run feed (taken seen) piece).1.take = (taken (seen ++ piece), frameEnding seen piece) := by
  cases h : firstFrame seen with
  | some f =>
    obtain ⟨filter, htaken⟩ := taken_of_some h
    have hseen := htaken []
    rw [List.append_nil] at hseen
    rw [hseen, htaken, run_feed_consumed, frameEnding_of_some h]
    rfl
  | none =>
    rw [taken_of_none h, frameEnding_of_none h, ← take_run_new, taken, run_append]

end Receiver

namespace Link

/-! ## Passes -/

/-- What is noted of a use that receives. -/
structure Pass where
  /-- How many bytes waited. -/
  available : Nat
  /-- The bytes that are no longer there to be read. -/
  read : Bytes
  /-- The frame that was returned. -/
  frame : Option Frame
  deriving DecidableEq

/-- The bytes that wait to be read. -/
def pending (l : Link) : Bytes :=
  match l.channel with
  | .serial port => port.rx
  | .bus _ => []

/-- The passes of a run, in order. -/
def passes : Link → List Operation → List Pass
  | _, [] => []
  | l, op :: rest =>
    let (next, outcome) := l.perform op
    match outcome with
    | .frame f =>
      ⟨l.channel.available, l.pending.take (l.pending.length - next.pending.length), f⟩ ::
        passes next rest
    | _ => passes next rest

/-- The bytes that the passes of a run read, in order. -/
def stream (l : Link) (ops : List Operation) : Bytes := (l.passes ops).flatMap Pass.read

/-- What arrived and found room. -/
def Operation.arrived : Operation → Outcome → Bytes
  | .inject bs, .count n => bs.take n
  | _, _ => []

/-- The bytes that arrived over a run, in order. -/
def arrivedBytes (ops : List Operation) (outcomes : List Outcome) : Bytes :=
  (List.zipWith Operation.arrived ops outcomes).flatten

/-- The use leaves what arrived to the passes: it does not drop it, nor read it past the
receiver. -/
def Operation.LeavesStream : Operation → Prop
  | .flush | .read => False
  | _ => True

/-- A link on a serial port that is new, or that was flushed after any uses. -/
inductive Restarted : Link → Prop where
  | fresh (p : Port) : Restarted (new (.serial p))
  | flushed (p : Port) (history : List Operation) :
    Restarted (run perform (new (.serial p)) history).1.flush

/-- The link works on this port, and its passes have read these bytes since it was
restarted. -/
structure HasRead (l : Link) (p : Port) (seen : Bytes) : Prop where
  channel_eq : l.channel = .serial p
  receiver_eq : l.receiver = .taken seen

variable {l : Link} {p : Port} {seen : Bytes}

/-! ## One use -/

theorem receive_serial (h : l.channel = .serial p) :
    l.receive = (⟨.serial { p with rx := p.rx.drop drainLimit },
      (run Receiver.feed l.receiver (p.rx.take drainLimit)).1.take.1⟩,
      (run Receiver.feed l.receiver (p.rx.take drainLimit)).1.take.2) := by
  rw [← receiver_drain drainLimit h, ← channel_drain drainLimit h]
  rfl

/-- A pass reads on where the one before it ended. -/
theorem HasRead.receive (h : l.HasRead p seen) :
    l.receive.1.HasRead { p with rx := p.rx.drop drainLimit } (seen ++ p.rx.take drainLimit) ∧
      l.receive.2 = frameEnding seen (p.rx.take drainLimit) := by
  rw [receive_serial h.channel_eq, h.receiver_eq, Receiver.take_run_feed_taken]
  exact ⟨⟨rfl, rfl⟩, rfl⟩

theorem sendFrame_serial (h : l.channel = .serial p) (f : Frame) (priority : Priority) :
    ∃ tx, (l.sendFrame f priority).1 = ⟨.serial { p with tx }, l.receiver⟩ := by
  obtain ⟨channel, receiver⟩ := l
  obtain rfl : channel = .serial p := h
  rw [sendFrame_eq]
  split
  · exact ⟨p.tx, rfl⟩
  · exact ⟨_, rfl⟩

/-- The other uses put what arrives behind what waits, and do nothing else to it. -/
theorem perform_serial (h : l.channel = .serial p) {op : Operation} (ho : op.LeavesStream) :
    op = .receive ∨ ∃ q, (l.perform op).1 = ⟨.serial q, l.receiver⟩ ∧
      q.rx = p.rx ++ op.arrived (l.perform op).2 ∧ ∀ f, (l.perform op).2 ≠ .frame f := by
  obtain ⟨channel, receiver⟩ := l
  obtain rfl : channel = .serial p := h
  cases op with
  | flush => exact ho.elim
  | read => exact ho.elim
  | receive => exact .inl rfl
  | send c priority =>
    obtain ⟨tx, hs⟩ := sendFrame_serial (l := ⟨.serial p, receiver⟩) rfl _ priority
    refine .inr ⟨{ p with tx }, ?_, (List.append_nil _).symm, fun _ h => by cases h⟩
    simp only [perform, send, c.toFrame_eq_ok .noAck]
    exact hs
  | sendFrame f priority =>
    obtain ⟨tx, hs⟩ := sendFrame_serial (l := ⟨.serial p, receiver⟩) rfl f priority
    exact .inr ⟨{ p with tx }, hs, (List.append_nil _).symm, fun _ h => by cases h⟩
  | inject bs =>
    exact .inr ⟨(p.inject bs).1, rfl, p.rx_inject bs, fun _ h => by cases h⟩
  | _ => exact .inr ⟨_, rfl, (List.append_nil _).symm, fun _ h => by cases h⟩

theorem passes_receive (h : l.channel = .serial p) (rest : List Operation) :
    l.passes (.receive :: rest) =
      ⟨p.rx.length, p.rx.take drainLimit, l.receive.2⟩ :: l.receive.1.passes rest := by
  have hread : p.rx.take (p.rx.length - (p.rx.drop drainLimit).length) = p.rx.take drainLimit := by
    rw [List.length_drop, Nat.sub_sub_eq_min, Nat.min_comm, ← List.take_eq_take_min]
  rw [← hread]
  simp only [passes, perform, pending, receive_serial h, h, Channel.available, Port.available]

theorem passes_of_ne_frame {op : Operation} (h : ∀ f, (l.perform op).2 ≠ .frame f)
    (rest : List Operation) : l.passes (op :: rest) = (l.perform op).1.passes rest := by
  cases hp : l.perform op with | mk next outcome =>
  rw [hp] at h
  simp only [passes, hp]

/-! ## Runs -/

/-- What a run reads and what it returns, for a run that begins where others ended. -/
theorem HasRead.run (h : l.HasRead p seen) {ops : List Operation}
    (ho : ∀ op ∈ ops, op.LeavesStream) :
    ∃ q, (run perform l ops).1.HasRead q (seen ++ l.stream ops) ∧
      p.rx ++ arrivedBytes ops (run perform l ops).2 = l.stream ops ++ q.rx ∧
      (∀ pass ∈ l.passes ops, pass.read.length = min drainLimit pass.available) ∧
      (l.passes ops).map Pass.frame = deliveries seen ((l.passes ops).map Pass.read) := by
  -- By induction on what is still to be done: a pass adds to what was read, and every other
  -- use at most to what waits.
  induction ops generalizing l p seen with
  | nil =>
    refine ⟨p, ?_, List.append_nil _, nofun, rfl⟩
    rw [stream, passes, List.flatMap_nil, List.append_nil]
    exact h
  | cons op rest ih =>
    have hrest : ∀ op ∈ rest, op.LeavesStream := fun o hr => ho o (List.mem_cons_of_mem op hr)
    obtain rfl | ⟨mid, hnext, harrived, hframe⟩ :=
      perform_serial h.channel_eq (ho op List.mem_cons_self)
    · obtain ⟨hread, hreturned⟩ := h.receive
      obtain ⟨q, hq, hconserved, hbounded, hframes⟩ := ih hread hrest
      have hpasses := passes_receive h.channel_eq rest
      refine ⟨q, ?_, ?_, ?_, ?_⟩
      · rw [stream, hpasses, List.flatMap_cons, ← List.append_assoc]
        exact hq
      · rw [stream, hpasses, List.flatMap_cons, List.append_assoc]
        show p.rx ++ arrivedBytes rest _ = p.rx.take drainLimit ++ (l.receive.1.stream rest ++ q.rx)
        rw [← hconserved, ← List.append_assoc, List.take_append_drop]
        rfl
      · rw [hpasses]
        rintro pass (_ | ⟨_, hpass⟩)
        · exact List.length_take
        · exact hbounded pass hpass
      · rw [hpasses, List.map_cons, List.map_cons, deliveries, hframes, hreturned]
    · have hread : (l.perform op).1.HasRead mid seen := by
        rw [hnext]
        exact ⟨rfl, h.receiver_eq⟩
      obtain ⟨q, hq, hconserved, hbounded, hframes⟩ := ih hread hrest
      have hpasses := passes_of_ne_frame hframe rest
      rw [stream, hpasses]
      refine ⟨q, hq, ?_, hbounded, hframes⟩
      rw [harrived, List.append_assoc] at hconserved
      exact hconserved

/-! ## From a restart on -/

/-- Whatever is done, a link stays on its port, and its receiver listens to the gimbal. -/
theorem perform_stays (op : Operation) (h : l.channel = .serial p)
    (hf : l.receiver.filter = .device) :
    ∃ q, (l.perform op).1.channel = .serial q ∧ (l.perform op).1.receiver.filter = .device := by
  by_cases ho : op.LeavesStream
  · obtain rfl | ⟨q, hnext, -, -⟩ := perform_serial h ho
    · exact ⟨_, channel_drain drainLimit h, (filter_receive l).trans hf⟩
    · rw [hnext]
      exact ⟨q, rfl, hf⟩
  · obtain ⟨channel, receiver⟩ := l
    obtain rfl : channel = .serial p := h
    cases op with
    | flush => exact ⟨_, discard_serial _ p, hf⟩
    | read => exact ⟨p.read.1, rfl, hf⟩
    | _ => exact absurd trivial ho

theorem Restarted.hasRead (h : l.Restarted) : ∃ p, l.HasRead p [] := by
  cases h with
  | fresh p => exact ⟨p, rfl, rfl⟩
  | flushed p history =>
    obtain ⟨q, hq, hf⟩ : ∃ q, (run perform (new (.serial p)) history).1.channel = .serial q ∧
        (run perform (new (.serial p)) history).1.receiver.filter = .device := by
      exact run_invariant
        (P := fun l : Link => ∃ q, l.channel = .serial q ∧ l.receiver.filter = .device)
        (fun _ op ⟨_, hq, hf⟩ => perform_stays op hq hf) ⟨p, rfl, rfl⟩ history
    refine ⟨_, (congrArg _ hq).trans (discard_serial _ q), ?_⟩
    show Receiver.reset _ = _
    rw [Receiver.reset_eq_ofFilter, hf]
    rfl

theorem Restarted.flush_run (h : l.Restarted) (ops : List Operation) :
    (run perform l ops).1.flush.Restarted := by
  cases h with
  | fresh p => exact .flushed p ops
  | flushed p history =>
    have hrun : (run perform (new (.serial p)) (history ++ .flush :: ops)).1 =
        (run perform (run perform (new (.serial p)) history).1.flush ops).1 := by
      rw [run_append]
      rfl
    rw [← hrun]
    exact .flushed p _

theorem pending_flush (h : l.channel = .serial p) : l.flush.pending = [] := by
  rw [pending, flush, h, discard_serial]
  exact List.drop_length

/-- No use leaves a frame in the receiver. -/
theorem isReady_perform (h : l.receiver.isReady = false) (op : Operation) :
    (l.perform op).1.receiver.isReady = false := by
  cases op with
  | receive => exact Receiver.isReady_take _
  | flush => rfl
  | send c priority =>
    simp only [perform, send, c.toFrame_eq_ok .noAck, sendFrame_eq]
    split <;> exact h
  | sendFrame f priority =>
    simp only [perform, sendFrame_eq]
    split <;> exact h
  | _ => exact h

/-- A run reads its stream in passes, and it makes no difference how. -/
structure InPasses (start : Link) (ops : List Operation) : Prop where
  /-- What waited and what arrived is what the passes read, in order, and what still waits. -/
  conserved : start.pending ++ arrivedBytes ops (GimbalLink.run perform start ops).2 =
    start.stream ops ++ (GimbalLink.run perform start ops).1.pending
  /-- A pass reads what waits, up to the limit. -/
  bounded : ∀ pass ∈ start.passes ops, pass.read.length = min drainLimit pass.available
  /-- The passes return the first valid frame of the stream, once, and no other. -/
  returned : (start.passes ops).filterMap Pass.frame = (firstFrame (start.stream ops)).toList
  /-- It is returned by the pass that reads its last byte. -/
  prompt : ∀ before pass after, start.passes ops = before ++ pass :: after → ∀ f,
    (pass.frame = some f ↔ ∃ n, firstEnd (start.stream ops) = some (n, f) ∧
      (before.flatMap Pass.read).length < n ∧
      n ≤ (before.flatMap Pass.read).length + pass.read.length)
  /-- There the bytes of the frame end. -/
  ends : ∀ n f, firstEnd (start.stream ops) = some (n, f) →
    ∃ front, (start.stream ops).take n = front ++ f.toBytes
  /-- Behind the frame every byte is dropped. -/
  dropped : ∀ f, firstFrame (start.stream ops) = some f → ∀ bs,
    let final := (GimbalLink.run perform start ops).1
    GimbalLink.run Receiver.feed final.receiver bs =
      (final.receiver, List.replicate bs.length .more)
  /-- No use leaves a frame in the receiver, whatever is done next. -/
  not_ready : ∀ more, (GimbalLink.run perform start (ops ++ more)).1.receiver.isReady = false
  /-- A flush drops what still waits, and all begins anew. -/
  flushed : (GimbalLink.run perform start ops).1.flush.pending = [] ∧
    (GimbalLink.run perform start ops).1.flush.Restarted

theorem frame_eq_frameEnding {before after : List Pass} {pass : Pass}
    (h : (before ++ pass :: after).map Pass.frame =
      deliveries seen ((before ++ pass :: after).map Pass.read)) :
    pass.frame = frameEnding (seen ++ before.flatMap Pass.read) pass.read := by
  rw [List.map_append, List.map_append, deliveries_append, List.map_cons, List.map_cons,
    deliveries] at h
  have hlength : (before.map Pass.frame).length =
      (deliveries seen (before.map Pass.read)).length := by
    rw [length_deliveries, List.length_map, List.length_map]
  obtain ⟨hpass, -⟩ := List.cons.inj (List.append_inj_right h hlength)
  exact hpass

/-- A link that is new or was flushed reads what arrives as one stream, however it is split
over passes. -/
theorem run_in_passes {start : Link} (hs : start.Restarted) {ops : List Operation}
    (ho : ∀ op ∈ ops, op.LeavesStream) : start.InPasses ops := by
  obtain ⟨p, hp⟩ := hs.hasRead
  obtain ⟨q, hq, hconserved, hbounded, hframes⟩ := hp.run ho
  have hnothing : firstFrame [] = none := by
    rw [firstFrame, tokenize]
    rfl
  refine ⟨?_, hbounded, ?_, ?_, fun n f => take_of_firstEnd, ?_, ?_, ?_, ?_⟩
  · rw [pending, pending, hp.channel_eq, hq.channel_eq]
    exact hconserved
  · calc (start.passes ops).filterMap Pass.frame
        = ((start.passes ops).map Pass.frame).filterMap id := by
          rw [List.filterMap_map]
          rfl
      _ = (frameEnding [] ((start.passes ops).map Pass.read).flatten).toList := by
        rw [hframes, filterMap_deliveries]
      _ = (firstFrame (start.stream ops)).toList := by
        rw [frameEnding_of_none hnothing, List.nil_append, stream, List.flatMap_def]
  · intro before pass after hsplit f
    rw [hsplit] at hframes
    rw [frame_eq_frameEnding hframes, List.nil_append, stream, hsplit, List.flatMap_append,
      List.flatMap_cons, ← List.append_assoc]
    exact frameEnding_eq_some_iff _ _ _
  · intro f hf bs final
    obtain ⟨filter, htaken⟩ := Receiver.taken_of_some hf
    have hfinal : final.receiver = ⟨filter, .consumed⟩ := by
      rw [hq.receiver_eq, ← htaken [], List.nil_append, List.append_nil]
    rw [hfinal]
    exact Receiver.run_feed_consumed bs
  · have hready : start.receiver.isReady = false := by
      rw [hp.receiver_eq]
      exact Receiver.isReady_take _
    exact fun more => run_invariant (P := fun l : Link => l.receiver.isReady = false)
      (fun _ op h => isReady_perform h op) hready (ops ++ more)
  · exact pending_flush hq.channel_eq
  · exact hs.flush_run ops

/-- The bytes of an unfinished frame, which a flush then drops. -/
def abandoned : List Operation := [.inject [0xFB, 2, 0x06, 1], .receive]

/-- Noise, a frame with a bad checksum, and an answer whose last bytes arrive after the first
pass, with another answer behind them. -/
def straddled : List Operation :=
  [.inject ([0x55, 0xFB, 0, 0x06, 1, 2] ++ Receiver.shortAnswer.toBytes.take 4), .receive,
    .send .recenter .normal, .inject (Receiver.shortAnswer.toBytes.drop 4), .setLimit 0,
    .inject { Receiver.shortAnswer with command := 0x02 }.toBytes, .receive, .receive]

theorem run_in_passes_straddling :
    let start := (run perform (new (.serial .new)) abandoned).1.flush
    start.Restarted ∧ (∀ op ∈ straddled, op.LeavesStream) ∧
      (start.passes straddled).map Pass.frame = [none, some Receiver.shortAnswer, none] ∧
      start.InPasses straddled := by
  intro start
  have hs : start.Restarted := .flushed .new abandoned
  have ho : ∀ op ∈ straddled, op.LeavesStream := by
    simp [straddled, Operation.LeavesStream]
  exact ⟨hs, ho, by decide +kernel, run_in_passes hs ho⟩

end Link

end GimbalLink
