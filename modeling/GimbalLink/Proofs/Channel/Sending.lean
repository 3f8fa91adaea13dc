import GimbalLink.Channel.Link
import GimbalLink.Proofs.Frame.Delivery
/-
  Sending on a serial link, over whole runs.

  A frame goes to the port whole or not at all. The check for room and the port's own
  limits are made at different places, and they agree because a port within its bounds
  (`Port.Bounded`) takes all that it says it has room for.

  What is proved:
    1. `sendFrame_eq_offer`: a link on a bounded port either appends all bytes of the
       frame or refuses it and stays as it is.
    2. `perform_conserves`: what an operation takes out and what then waits is what
       waited before and the frame it put in; `run_conserves` says the same of a run.
    3. `sent_stream_is_accepted_frames`: the bytes of a whole run, taken and still
       waiting, are the accepted frames, and a receiver gets just these.
-/
namespace GimbalLink

namespace Port

/-- A port within its bounds. -/
structure Bounded (p : Port) : Prop where
  tx_le : p.tx.length ≤ capacity
  limit_le : p.txLimit ≤ capacity

theorem bounded_new : new.Bounded := ⟨by decide, by decide⟩

theorem Bounded.setLimit {p : Port} (h : p.Bounded) (limit : Nat) : (p.setLimit limit).Bounded :=
  ⟨h.tx_le, Nat.min_le_right _ _⟩

/-- A bounded port takes all that it says it has room for. -/
theorem write_of_le_space {p : Port} (h : p.Bounded) {bs : Bytes} (hs : bs.length ≤ p.txSpace) :
    p.write bs = ({ p with tx := p.tx ++ bs }, bs.length) := by
  have hl := h.limit_le
  have hc : bs.length ≤ capacity - p.tx.length := by
    rw [txSpace] at hs
    omega
  simp only [write, List.take_of_length_le hs, List.take_of_length_le hc]

theorem Bounded.append {p : Port} (h : p.Bounded) {bs : Bytes} (hs : bs.length ≤ p.txSpace) :
    Bounded { p with tx := p.tx ++ bs } := by
  have ht := h.tx_le
  have hl := h.limit_le
  refine ⟨?_, hl⟩
  rw [txSpace] at hs
  rw [List.length_append]
  omega

/-- From a bounded port, a buffer of its capacity takes everything. -/
theorem takeTx_of_capacity_le {p : Port} (h : p.Bounded) {room : Nat} (hr : capacity ≤ room) :
    p.takeTx room = ({ p with tx := [] }, p.tx) := by
  have ht := h.tx_le
  rw [takeTx, List.take_of_length_le (by omega), List.drop_of_length_le (by omega)]

end Port

namespace Link

/-- The link works on this port, and the port is within its bounds. -/
structure On (l : Link) (p : Port) : Prop where
  channel_eq : l.channel = .serial p
  bounded : p.Bounded

/-- What becomes of a frame on a link with this port: it is appended whole, or it is
refused and the link stays as it is. -/
def offer (l : Link) (p : Port) (f : Frame) : Link × Except SendError Nat :=
  if p.txSpace < f.size + sendMargin then (l, .error .insufficientSpace)
  else ({ l with channel := .serial { p with tx := p.tx ++ f.toBytes } }, .ok f.size)

variable {l : Link} {p : Port}

theorem sendFrame_eq_offer (h : l.On p) (f : Frame) (priority : Priority) :
    l.sendFrame f priority = l.offer p f := by
  rw [sendFrame_eq, offer, h.channel_eq]
  show (if p.txSpace < f.size + sendMargin then _ else _) = _
  by_cases hs : p.txSpace < f.size + sendMargin
  · rw [if_pos hs, if_pos hs]
  · -- The margin is on top of the frame's own bytes, so the port takes all of them.
    have hb : f.toBytes.length ≤ p.txSpace := by
      rw [f.length_toBytes]
      omega
    rw [if_neg hs, if_neg hs, Channel.write]
    simp only [Port.write_of_le_space h.bounded hb, f.length_toBytes]

theorem send_eq_offer (h : l.On p) (c : Command) (priority : Priority) :
    ∃ f, c.toFrame .noAck = .ok f ∧ l.send c priority = l.offer p f := by
  have hf := c.toFrame_eq_ok .noAck
  refine ⟨_, hf, ?_⟩
  simp only [send, hf]
  exact sendFrame_eq_offer h _ priority

theorem channel_drain (n : Nat) (h : l.channel = .serial p) :
    (drain n l).channel = .serial { p with rx := p.rx.drop n } := by
  induction n generalizing l p with
  | zero => exact h
  | succ n ih =>
    obtain ⟨tx, rx, limit⟩ := p
    cases rx with
    | nil => simp only [drain, h, Channel.read, Port.read, List.head?_nil, List.drop_nil]
    | cons b rest =>
      simp only [drain, h, Channel.read, Port.read, List.head?_cons, List.tail_cons,
        List.drop_succ_cons]
      exact @ih ⟨.serial ⟨tx, rest, limit⟩, (l.receiver.feed b).1⟩ _ rfl

theorem discard_serial (n : Nat) (p : Port) :
    discard n (.serial p) = .serial { p with rx := p.rx.drop n } := by
  induction n generalizing p with
  | zero => rfl
  | succ n ih =>
    obtain ⟨tx, rx, limit⟩ := p
    cases rx with
    | nil =>
      simp only [discard, Channel.read, Port.read, List.head?_nil, List.tail_nil, List.drop_nil]
    | cons b rest =>
      simp only [discard, Channel.read, Port.read, List.head?_cons, List.tail_cons,
        List.drop_succ_cons]
      exact ih _

/-! ## Runs -/

/-- The use writes to the port by frames alone, and takes out all or nothing. -/
def Operation.FramesOnly : Operation → Prop
  | .write .. => False
  | .takeTx room => Port.capacity ≤ room
  | _ => True

/-- The frame that an operation with this outcome has put on its way. -/
def Operation.accepted : Operation → Outcome → List Frame
  | .send c _, .sent (.ok _) => (c.toFrame .noAck).toOption.toList
  | .sendFrame f _, .sent (.ok _) => [f]
  | _, _ => []

/-- The bytes taken out. -/
def Outcome.taken : Outcome → Bytes
  | .bytes bs => bs
  | _ => []

/-- The frames accepted over a run, in order. -/
def acceptedFrames (ops : List Operation) (outcomes : List Outcome) : List Frame :=
  (List.zipWith Operation.accepted ops outcomes).flatten

/-- A frame offered is refused or appended, and the link is on a bounded port still. -/
theorem offer_cases (h : l.On p) (f : Frame) :
    l.offer p f = (l, .error .insufficientSpace) ∨
    ∃ l', l.offer p f = (l', .ok f.size) ∧ l'.On { p with tx := p.tx ++ f.toBytes } := by
  by_cases hs : p.txSpace < f.size + sendMargin
  · exact .inl (if_pos hs)
  · have hb : f.toBytes.length ≤ p.txSpace := by
      rw [f.length_toBytes]
      omega
    exact .inr ⟨_, if_neg hs, rfl, h.bounded.append hb⟩

theorem conserves_of_offer (h : l.On p) {op : Operation} {f : Frame}
    (hp : l.perform op = ((l.offer p f).1, .sent (l.offer p f).2))
    (ha : ∀ n, op.accepted (.sent (.ok n)) = [f]) (hr : ∀ e, op.accepted (.sent (.error e)) = []) :
    ∃ q, (l.perform op).1.On q ∧
      (l.perform op).2.taken ++ q.tx =
        p.tx ++ (op.accepted (l.perform op).2).flatMap Frame.toBytes := by
  rw [hp]
  obtain ho | ⟨l', ho, hl⟩ := offer_cases h f
  · rw [ho, hr]
    exact ⟨p, h, (List.append_nil _).symm⟩
  · rw [ho, ha, List.flatMap_singleton]
    exact ⟨_, hl, rfl⟩

/-- What an operation takes out and what then waits is what waited before and what the
operation put behind it. -/
theorem perform_conserves (h : l.On p) {op : Operation} (ho : op.FramesOnly) :
    ∃ q, (l.perform op).1.On q ∧
      (l.perform op).2.taken ++ q.tx =
        p.tx ++ (op.accepted (l.perform op).2).flatMap Frame.toBytes := by
  -- What arrives is another queue: reading and injecting touch nothing of this.
  have kept (rx : Bytes) : Port.Bounded { p with rx } := ⟨h.bounded.tx_le, h.bounded.limit_le⟩
  cases op with
  | send c priority =>
    obtain ⟨f, hf, he⟩ := send_eq_offer h c priority
    have hp : l.perform (.send c priority) = ((l.offer p f).1, .sent (l.offer p f).2) := by
      simp only [perform, he]
    refine conserves_of_offer h hp (fun n => ?_) fun e => rfl
    simp only [Operation.accepted, hf]
    rfl
  | sendFrame f priority =>
    have hp : l.perform (.sendFrame f priority) = ((l.offer p f).1, .sent (l.offer p f).2) := by
      simp only [perform, sendFrame_eq_offer h f priority]
    exact conserves_of_offer h hp (fun n => rfl) fun e => rfl
  | write bs priority => exact ho.elim
  | read =>
    refine ⟨{ p with rx := p.rx.tail }, ⟨?_, kept _⟩, (List.append_nil _).symm⟩
    simp only [perform, h.channel_eq]
    rfl
  | receive =>
    refine ⟨{ p with rx := p.rx.drop drainLimit }, ⟨?_, kept _⟩, (List.append_nil _).symm⟩
    exact channel_drain drainLimit h.channel_eq
  | flush =>
    refine ⟨{ p with rx := p.rx.drop p.rx.length }, ⟨?_, kept _⟩, (List.append_nil _).symm⟩
    simp only [perform, flush, h.channel_eq, Channel.available, discard_serial, Port.available]
  | takeStatus =>
    refine ⟨p, ⟨?_, h.bounded⟩, (List.append_nil _).symm⟩
    simp only [perform, h.channel_eq, Channel.takeStatus]
  | inject bs =>
    refine ⟨(p.inject bs).1, ⟨?_, kept _⟩, (List.append_nil _).symm⟩
    simp only [perform, h.channel_eq, Channel.inject]
  | setLimit limit =>
    refine ⟨p.setLimit limit, ⟨?_, h.bounded.setLimit limit⟩, (List.append_nil _).symm⟩
    simp only [perform, h.channel_eq, Channel.setLimit]
  | takeTx room =>
    have ht : l.perform (.takeTx room) =
        ({ l with channel := .serial { p with tx := [] } }, .bytes p.tx) := by
      simp only [perform, h.channel_eq, Channel.takeTx, Port.takeTx_of_capacity_le h.bounded ho]
    rw [ht]
    exact ⟨{ p with tx := [] }, ⟨rfl, Nat.zero_le _, h.bounded.limit_le⟩, rfl⟩
  | setReady ready =>
    refine ⟨p, ⟨?_, h.bounded⟩, (List.append_nil _).symm⟩
    simp only [perform, h.channel_eq, Channel.setReady, Channel.mapBus]
  | setAccepting accepting =>
    refine ⟨p, ⟨?_, h.bounded⟩, (List.append_nil _).symm⟩
    simp only [perform, h.channel_eq, Channel.setAccepting, Channel.mapBus]
  | deliver s =>
    refine ⟨p, ⟨?_, h.bounded⟩, (List.append_nil _).symm⟩
    simp only [perform, h.channel_eq, Channel.deliver, Channel.mapBus]
  | takeSent =>
    refine ⟨p, ⟨?_, h.bounded⟩, (List.append_nil _).symm⟩
    simp only [perform, h.channel_eq, Channel.takeSent]

theorem run_conserves (h : l.On p) {ops : List Operation} (ho : ∀ op ∈ ops, op.FramesOnly) :
    ∃ q, (run perform l ops).1.On q ∧
      (run perform l ops).2.flatMap Outcome.taken ++ q.tx =
        p.tx ++ (acceptedFrames ops (run perform l ops).2).flatMap Frame.toBytes := by
  induction ops generalizing l p with
  | nil => exact ⟨p, h, (List.append_nil _).symm⟩
  | cons op rest ih =>
    obtain ⟨mid, hm, hstep⟩ := perform_conserves h (ho op List.mem_cons_self)
    obtain ⟨q, hq, hrest⟩ := ih hm fun o hr => ho o (List.mem_cons_of_mem op hr)
    refine ⟨q, hq, ?_⟩
    simp only [run, List.flatMap_cons, acceptedFrames, List.zipWith_cons_cons, List.flatten_cons,
      List.flatMap_append, List.append_assoc]
    rw [hrest, ← List.append_assoc, hstep, List.append_assoc]
    rfl

/-- Sending is all or nothing over whole runs. After any uses, a command or a frame is
refused or appended whole; the bytes taken so far and those that still wait are the
accepted frames; and a receiver of these bytes gets just the accepted frames. -/
theorem sent_stream_is_accepted_frames (ops : List Operation) (h : ∀ op ∈ ops, op.FramesOnly) :
    let final := run perform (new (.serial .new)) ops
    let frames := acceptedFrames ops final.2
    ∃ port, final.1.channel = .serial port ∧
      (∀ c priority, ∃ f, c.toFrame .noAck = .ok f ∧
        final.1.send c priority = final.1.offer port f) ∧
      (∀ f priority, final.1.sendFrame f priority = final.1.offer port f) ∧
      let stream := final.2.flatMap Outcome.taken ++ port.tx
      stream = frames.flatMap Frame.toBytes ∧
      (run Receiver.serve (.ofFilter .any) stream).2.filterMap id =
        frames.map fun f => .completed (some f) := by
  intro final frames
  have hn : (new (.serial .new)).On .new := ⟨rfl, Port.bounded_new⟩
  obtain ⟨port, hp, hbytes⟩ := run_conserves hn h
  refine ⟨port, hp.channel_eq, fun c priority => send_eq_offer hp c priority,
    fun f priority => sendFrame_eq_offer hp f priority, hbytes, ?_⟩
  show (run Receiver.serve (.ofFilter .any) (final.2.flatMap Outcome.taken ++ port.tx)).2.filterMap
    id = _
  rw [hbytes]
  exact Receiver.run_serve_flatMap_toBytes frames fun f _ => StartFilter.accept_any f.start

/-- The limit leaves room for one frame; the second waits for the first to be taken. -/
def crowdedRun : List Operation :=
  [.setLimit 20, .send .recenter .normal, .send .recenter .highest, .inject [0x55], .receive,
    .takeTx Port.capacity, .send (.camera takePicture) .normal, .flush]

theorem sent_stream_of_crowdedRun :
    (∀ op ∈ crowdedRun, op.FramesOnly) ∧
    let final := run perform (new (.serial .new)) crowdedRun
    let frames := acceptedFrames crowdedRun final.2
    frames.map Frame.command = [Code.pulses, Code.camera] ∧
    ∃ port, final.1.channel = .serial port ∧
      let stream := final.2.flatMap Outcome.taken ++ port.tx
      stream = frames.flatMap Frame.toBytes ∧
      (run Receiver.serve (.ofFilter .any) stream).2.filterMap id =
        frames.map fun f => .completed (some f) := by
  have h : ∀ op ∈ crowdedRun, op.FramesOnly := by
    simp [crowdedRun, Operation.FramesOnly]
  obtain ⟨port, hp, -, -, hs, hr⟩ := sent_stream_is_accepted_frames crowdedRun h
  exact ⟨h, by decide, port, hp, hs, hr⟩

end Link

end GimbalLink
