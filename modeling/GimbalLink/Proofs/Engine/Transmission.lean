import GimbalLink.Proofs.Engine.Actions
/-
  What a rig puts on its serial port, and what comes in.

  On the serial channel an engine tries to send commands in its ticks, and when it is asked
  to tell a location. Each is an `Attempt`, of which the frame goes out whole or not at all.
  The other operations between ticks work on the port from its far side.

  What is proved:
    1. `Link.Follows.carries`: a tick puts the frames on the port that the channel took.
    2. `Rig.perform_between`: what an operation between ticks does to either queue.
    3. `Rig.perform_carries`: every operation leaves behind what waited the frames that were
       taken in it.
-/
namespace GimbalLink

/-! ## Attempts -/

/-- A command that was to be sent, and what became of it. -/
structure Attempt where
  command : Command
  result : Except SendError Nat

namespace Attempt

/-- The frame that was to be sent. -/
def frames (a : Attempt) : List Frame := (a.command.toFrame .noAck).toOption.toList

/-- The channel took it. -/
def taken (a : Attempt) : Bool := a.result.isOk

end Attempt

def Action.attempt? : Action → Option Attempt
  | .send c _ result => some ⟨c, result⟩
  | _ => none

/-- The frames that the channel took. -/
def takenFrames (attempts : List Attempt) : List Frame :=
  (attempts.filter Attempt.taken).flatMap Attempt.frames

theorem takenFrames_append (a b : List Attempt) :
    takenFrames (a ++ b) = takenFrames a ++ takenFrames b := by
  rw [takenFrames, List.filter_append, List.flatMap_append]
  rfl

theorem takenFrames_cons (a : Attempt) (rest : List Attempt) :
    takenFrames (a :: rest) = takenFrames [a] ++ takenFrames rest :=
  takenFrames_append [a] rest

namespace Link

theorem receiver_send (l : Link) (c : Command) (priority : Priority) :
    (l.send c priority).1.receiver = l.receiver := by
  simp only [send, c.toFrame_eq_ok .noAck, sendFrame_eq]
  split <;> rfl

/-- A command is refused, or its frame is put behind what waits. -/
theorem send_carries {l : Link} {p : Port} (h : l.On p) (c : Command) (priority : Priority) :
    ∃ q, (l.send c priority).1.On q ∧ q.rx = p.rx ∧
      q.tx = p.tx ++ (takenFrames [⟨c, (l.send c priority).2⟩]).flatMap Frame.toBytes := by
  obtain ⟨f, hf, he⟩ := send_eq_offer h c priority
  have hframes : (c.toFrame .noAck).toOption.toList = [f] := by rw [hf]; rfl
  rw [he]
  obtain ho | ⟨m, ho, hm⟩ := offer_cases h f
  · rw [ho]
    exact ⟨p, h, rfl, (List.append_nil _).symm⟩
  · rw [ho]
    refine ⟨_, hm, rfl, ?_⟩
    show _ = p.tx ++ ((c.toFrame .noAck).toOption.toList ++ []).flatMap Frame.toBytes
    rw [hframes, List.append_nil, List.flatMap_singleton]

/-- Reading leaves alone what waits to be taken. -/
theorem perform_keeps_tx {l : Link} {p : Port} (h : l.On p) {op : Operation}
    (ho : op = .flush ∨ op = .receive ∨ op = .takeStatus) :
    ∃ q, (l.perform op).1.On q ∧ q.tx = p.tx := by
  have hf : op.FramesOnly := by obtain rfl | rfl | rfl := ho <;> trivial
  obtain ⟨q, hq, ht⟩ := perform_conserves h hf
  refine ⟨q, hq, ?_⟩
  obtain rfl | rfl | rfl := ho <;> exact ht.trans (List.append_nil _)

/-- What some actions put on the port is the frames that were taken. -/
theorem Follows.carries {l m : Link} {actions : List Action} (h : l.Follows actions m) {p : Port}
    (hp : l.On p) :
    ∃ q, m.On q ∧
      q.tx = p.tx ++ (takenFrames (actions.filterMap Action.attempt?)).flatMap Frame.toBytes := by
  induction h generalizing p with
  | nothing => exact ⟨p, hp, (List.append_nil _).symm⟩
  | flush _ ih =>
    obtain ⟨q, hq, ht⟩ := perform_keeps_tx hp (.inl rfl)
    exact ht ▸ ih hq
  | receive _ ih =>
    obtain ⟨q, hq, ht⟩ := perform_keeps_tx hp (.inr (.inl rfl))
    exact ht ▸ ih hq
  | takeStatus _ ih =>
    obtain ⟨q, hq, ht⟩ := perform_keeps_tx hp (.inr (.inr rfl))
    exact ht ▸ ih hq
  | @send l m rest c priority _ ih =>
    obtain ⟨q, hq, -, ht⟩ := send_carries hp c priority
    obtain ⟨o, ho, hr⟩ := ih hq
    refine ⟨o, ho, ?_⟩
    rw [hr, ht]
    simp only [List.filterMap_cons, Action.attempt?,
      takenFrames_cons ⟨c, _⟩ (List.filterMap _ rest), List.flatMap_append, List.append_assoc]

end Link

namespace Rig

/-- The command that tells where home is. -/
def homeCommand (place : Option Location) : Command :=
  .setHome ((place.map fun l => ⟨l, locationValid⟩).getD default)

/-- The command that tells where the target is. -/
def targetCommand (l : Location) : Command := .setTarget ⟨l, locationValid⟩

/-- What an operation with this outcome tried to send, for this vehicle. -/
def attemptsIn (v : Vehicle) : Operation → Outcome → List Attempt
  | .tick, .ticked report => report.actions.filterMap Action.attempt?
  | .sendHome, .sent result => [⟨homeCommand v.location, result⟩]
  | .sendTarget l, .sent result => [⟨targetCommand l, result⟩]
  | _, _ => []

/-- What an operation tries to send. -/
def attempts (r : Rig) (op : Operation) : List Attempt :=
  attemptsIn r.vehicle op (r.perform op).2

/-- The bytes that an operation with this outcome brings in. -/
def Operation.accepted : Operation → Outcome → Bytes
  | .inject bs, .count n => bs.take n
  | _, _ => []

/-- What an operation leaves of what waits to be taken. -/
def Operation.left : Operation → Port → Bytes
  | .takeTx room, p => (p.takeTx room).1.tx
  | _, p => p.tx

/-- The engine has this link, and the link works on this port. -/
structure Has (r : Rig) (l : Link) (p : Port) : Prop where
  link_eq : r.engine.link = some l
  on : l.On p

variable {r : Rig} {l : Link} {p : Port}

theorem Has.port_eq (h : r.Has l p) : r.port = p := by
  obtain ⟨channel, receiver⟩ := l
  obtain rfl : channel = .serial p := h.on.channel_eq
  rw [port, h.link_eq]

theorem Has.wiring_eq (h : r.Has l p) : r.engine.wiring = some .serial := by
  rw [Engine.wiring, h.link_eq, Option.map_some, h.on.channel_eq]
  rfl

theorem Has.setPort (h : r.Has l p) {q : Port} (hq : q.Bounded) :
    (r.setPort q).Has { l with channel := .serial q } q := by
  obtain ⟨channel, receiver⟩ := l
  obtain rfl : channel = .serial p := h.on.channel_eq
  refine ⟨?_, rfl, hq⟩
  simp only [Rig.setPort, h.link_eq, Engine.mapChannel, Option.map_some]

/-- What does nothing to a serial channel does nothing to the link. -/
theorem Has.mapChannel (h : r.Has l p) {f : Channel → Channel} (hf : f (.serial p) = .serial p) :
    Has { r with engine := r.engine.mapChannel f } l p := by
  obtain ⟨channel, receiver⟩ := l
  obtain rfl : channel = .serial p := h.on.channel_eq
  refine ⟨?_, h.on⟩
  simp only [Engine.mapChannel, h.link_eq, Option.map_some, hf]

/-- An operation that neither brings anything in nor sends anything leaves link and port. -/
def Between (r : Rig) (op : Operation) (l : Link) (p : Port) : Prop :=
  ∃ m q, (r.perform op).1.Has m q ∧ m.receiver = l.receiver ∧
    q.rx = p.rx ++ op.accepted (r.perform op).2 ∧
    q.tx = op.left p ++ (takenFrames (r.attempts op)).flatMap Frame.toBytes

theorem between_of_has {op : Operation} (h : (r.perform op).1.Has l p)
    (ha : op.accepted (r.perform op).2 = []) (hl : op.left p = p.tx) (ht : r.attempts op = []) :
    r.Between op l p := by
  refine ⟨l, p, h, rfl, ?_, ?_⟩
  · rw [ha, List.append_nil]
  · rw [hl, ht]
    exact (List.append_nil _).symm

theorem send_between (h : r.Has l p) (c : Command) (priority : Priority) :
    ∃ m q, Has { r with engine := (r.engine.send c priority).1 } m q ∧ m.receiver = l.receiver ∧
      q.rx = p.rx ∧
      q.tx = p.tx ++ (takenFrames [⟨c, (r.engine.send c priority).2⟩]).flatMap Frame.toBytes := by
  unfold Engine.send
  split
  · exact ⟨l, p, h, rfl, rfl, (List.append_nil _).symm⟩
  · obtain ⟨q, hq, hrx, htx⟩ := Link.send_carries h.on c priority
    simp only [h.link_eq]
    exact ⟨_, q, ⟨rfl, hq⟩, l.receiver_send c priority, hrx, htx⟩

/-- Between ticks, bytes come in as they are accepted, and the receiver does not look. -/
theorem perform_between (h : r.Has l p) {op : Operation} (ho : op ≠ .tick) :
    r.Between op l p := by
  obtain rfl : p = r.port := h.port_eq.symm
  have hb := h.on.bounded
  cases op with
  | tick => exact absurd rfl ho
  | inject bs =>
    refine ⟨_, _, h.setPort (q := (r.port.inject bs).1) ⟨hb.tx_le, hb.limit_le⟩, rfl, ?_,
      (List.append_nil _).symm⟩
    show r.port.rx ++ bs.take _ = r.port.rx ++ bs.take (bs.take _).length
    rw [List.length_take, ← List.take_eq_take_min]
  | setLimit limit =>
    exact ⟨_, _, h.setPort (hb.setLimit limit), rfl, (List.append_nil _).symm,
      (List.append_nil _).symm⟩
  | takeTx room =>
    have hd : (r.port.takeTx room).1.Bounded := by
      refine ⟨?_, hb.limit_le⟩
      rw [Port.takeTx, List.length_drop]
      exact Nat.le_trans (Nat.sub_le _ _) hb.tx_le
    exact ⟨_, _, h.setPort hd, rfl, (List.append_nil _).symm, (List.append_nil _).symm⟩
  | setReady ready => exact between_of_has (h.mapChannel rfl) rfl rfl rfl
  | setAccepting accepting => exact between_of_has (h.mapChannel rfl) rfl rfl rfl
  | takeSent => exact between_of_has (h.mapChannel rfl) rfl rfl rfl
  | publish node s =>
    obtain ⟨after, result, hp⟩ := publish_delivers r.registry node s
    have hh : (r.perform (.publish node s)).1.Has l r.port := by
      simp only [perform, publish, hp]
      cases heardBy result with
      | false => exact ⟨h.link_eq, h.on⟩
      | true => exact ⟨(h.mapChannel (f := (·.deliver s)) rfl).link_eq, h.on⟩
    exact between_of_has hh rfl rfl rfl
  | setMode mode =>
    have hh : (r.perform (.setMode mode)).1.Has l r.port := by
      refine ⟨?_, h.on⟩
      simp only [perform, onEngine, Engine.setMode]
      split <;> exact h.link_eq
    exact between_of_has hh rfl rfl rfl
  | sendHome =>
    obtain ⟨m, q, hm, hr, hrx, htx⟩ :=
      send_between h (homeCommand r.vehicle.location) .normal
    exact ⟨m, q, hm, hr, hrx.trans (List.append_nil _).symm, htx⟩
  | sendTarget place =>
    obtain ⟨m, q, hm, hr, hrx, htx⟩ := send_between h (targetCommand place) .normal
    exact ⟨m, q, hm, hr, hrx.trans (List.append_nil _).symm, htx⟩
  | _ => exact between_of_has ⟨h.link_eq, h.on⟩ rfl rfl rfl

/-- Every operation leaves, behind what it leaves of what waited, the frames that were taken
in it, and each of them whole. -/
theorem perform_carries (h : r.Has l p) (op : Operation) :
    ∃ m q, (r.perform op).1.Has m q ∧
      q.tx = op.left p ++ (takenFrames (r.attempts op)).flatMap Frame.toBytes := by
  by_cases ho : op = .tick
  · subst ho
    obtain ⟨m, hm, hf⟩ :=
      r.engine.tick_reports r.clock.now r.vehicle r.connected l h.link_eq
    obtain ⟨q, hq, htx⟩ := hf.carries h.on
    exact ⟨m, q, ⟨hm, hq⟩, htx⟩
  · obtain ⟨m, q, hm, -, -, htx⟩ := perform_between h ho
    exact ⟨m, q, hm, htx⟩

theorem has_run (h : ∃ l p, r.Has l p) (ops : List Operation) :
    ∃ l p, (run perform r ops).1.Has l p := by
  refine run_invariant (P := fun s : Rig => ∃ l p, s.Has l p) (fun s op hs => ?_) h ops
  obtain ⟨l, p, hs⟩ := hs
  obtain ⟨m, q, hm, -⟩ := perform_carries hs op
  exact ⟨m, q, hm⟩

theorem has_new (settings : Settings) (vehicle : Vehicle) (connected ready : Bool)
    (start : Millis) :
    (new (some .serial) settings vehicle connected ready start).1.Has (.new (.serial .new)) .new :=
  ⟨rfl, rfl, Port.bounded_new⟩

end Rig

end GimbalLink
