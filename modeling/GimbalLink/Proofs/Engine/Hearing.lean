import GimbalLink.Proofs.Channel.Receiving
import GimbalLink.Proofs.Engine.Transmission
/-
  What an engine on the serial channel has heard.

  An operation does one of three things with the bytes that wait to be read, and with what
  the receiver has of a frame: it leaves them, drops them, or reads of them (`Heed`). Only
  ticks do other than leave them, and which of the three a tick does is told by the step of
  the search or by the job that is due.

  So between a request and the look for its answer nothing is lost, nothing is added but
  what comes in, and nothing from before is left. What is read then is the first frame of
  what came in since the request.

  What is proved:
    1. `Rig.perform_heeded`: what an operation makes of the receiver and of what waits.
    2. `Rig.Asking.run_holds`: after any run, a rig that listens has a new receiver, and what
       came in since it last asked waits to be read.
-/
namespace GimbalLink

/-- What is done with what was received. -/
inductive Heed where
  | leaves
  | drops
  | reads
  deriving DecidableEq, Repr

def SearchStep.heed : SearchStep → Heed
  | .request => .drops
  | .await => .reads
  | _ => .leaves

def Job.heed : Job → Heed
  | .request => .drops
  | .receive => .reads
  | _ => .leaves

namespace Engine

/-- The engine works on a serial port, on which these bytes wait to be read, and has this
receiver. -/
def Holds (e : Engine) (x : Receiver) (bs : Bytes) : Prop :=
  ∃ l p, e.link = some l ∧ l.On p ∧ l.receiver = x ∧ p.rx = bs

/-- What becomes of a receiver and of the bytes that wait, when they are dealt with so. -/
def Heeded (d : Engine) : Heed → Receiver → Bytes → Prop
  | .leaves, x, bs => d.Holds x bs
  | .drops, x, _ => d.Holds x.reset []
  | .reads, x, bs => ∃ y : Receiver, y.filter = x.filter ∧ d.Holds y (bs.drop Link.drainLimit)

/-- What a tick does with what was received. -/
def heed (e : Engine) (now : Millis) : Heed :=
  match e.state with
  | .disabled => .leaves
  | .searching => (e.search.poll now).2.heed
  | .found => ((e.rotation.poll now).2.map Job.heed).getD .leaves

variable {e d : Engine} {x : Receiver} {bs : Bytes}

/-! ## The parts of a tick -/

theorem Holds.wiring_eq (h : e.Holds x bs) : e.wiring = some .serial := by
  obtain ⟨l, p, hl, hp, -, -⟩ := h
  rw [wiring, hl, Option.map_some, hp.channel_eq]
  rfl

theorem Holds.of_link_eq (h : e.Holds x bs) (hd : d.link = e.link) : d.Holds x bs := by
  obtain ⟨l, p, hl, hp⟩ := h
  exact ⟨l, p, hd.trans hl, hp⟩

theorem Heeded.of_link_eq {heed : Heed} (h : e.Heeded heed x bs) (hd : d.link = e.link) :
    d.Heeded heed x bs := by
  cases heed with
  | leaves => exact Holds.of_link_eq h hd
  | drops => exact Holds.of_link_eq h hd
  | reads =>
    obtain ⟨y, hy, h⟩ := h
    exact ⟨y, hy, h.of_link_eq hd⟩

theorem Holds.attempt (h : e.Holds x bs) (c : Command) (priority : Priority) :
    (e.attempt c priority).1.Holds x bs := by
  obtain ⟨l, p, hl, hp, rfl, rfl⟩ := h
  show (e.send c priority).1.Holds l.receiver p.rx
  unfold Engine.send
  split
  · exact ⟨l, p, hl, hp, rfl, rfl⟩
  · obtain ⟨q, hq, hrx, -⟩ := Link.send_carries hp c priority
    simp only [hl]
    exact ⟨_, q, rfl, hq, l.receiver_send c priority, hrx⟩

theorem Holds.flushLink (h : e.Holds x bs) : e.flushLink.1.Holds x.reset [] := by
  obtain ⟨l, p, hl, hp, rfl, rfl⟩ := h
  refine ⟨l.flush, _, ?_, Link.flush_on hp, rfl, rfl⟩
  rw [Engine.flushLink, hl]
  rfl

theorem Holds.receiveFrame (h : e.Holds x bs) : e.receiveFrame.1.Heeded .reads x bs := by
  obtain ⟨l, p, hl, hp, rfl, rfl⟩ := h
  refine ⟨l.receive.1.receiver, l.filter_receive, l.receive.1, _, ?_, Link.receive_on hp, rfl, rfl⟩
  simp only [Engine.receiveFrame, hl]

/-- An engine with a new receiver takes the first frame of what it reads. -/
theorem receiveFrame_of_new (h : e.Holds .new bs) :
    e.receiveFrame.2.2 = firstFrame (bs.take Link.drainLimit) := by
  obtain ⟨l, p, hl, hp, hr, rfl⟩ := h
  simp only [Engine.receiveFrame, hl]
  exact Link.receive_eq hp hr

theorem awaitVersion_link (e : Engine) : e.awaitVersion.1.link = e.receiveFrame.1.link := by
  unfold awaitVersion
  dsimp only
  split
  · exact meet_link _ _
  · rfl

theorem searchSerial_heeded (h : e.Holds x bs) (now : Millis) :
    (e.searchSerial now).1.Heeded (e.search.poll now).2.heed x bs := by
  have hp : Holds { e with search := (e.search.poll now).1 } x bs := h
  cases hs : (e.search.poll now).2 with
  | idle =>
    rw [searchSerial_quiet (.inl hs)]
    exact hp
  | timedOut =>
    rw [searchSerial_quiet (.inr hs)]
    exact hp
  | request =>
    rw [searchSerial_request hs]
    exact hp.flushLink.attempt .getVersion .normal
  | await =>
    rw [searchSerial_await hs]
    exact hp.receiveFrame.of_link_eq (awaitVersion_link _)

theorem requestLive_heeded (h : e.Holds x bs) (hs : e.state ≠ .disabled) :
    e.requestLive.1.Holds x.reset [] := by
  have hk : e.kind = some .serial := (if_neg hs).trans h.wiring_eq
  simp only [requestLive, if_pos hk]
  exact h.flushLink.attempt (.getLiveData LiveFields.request) .normal

theorem cameraShot_heeded (h : e.Holds x bs) : e.cameraShot.1.Holds x bs := by
  have hc : Holds { e with cameraPending := false } x bs := h
  unfold cameraShot
  dsimp only
  split
  · exact hc.attempt _ _
  · exact hc

theorem receiveJob_link (h : e.wiring = some .serial) :
    e.receiveJob.1.link = e.receiveFrame.1.link := by
  simp only [receiveJob, h]
  split <;> rfl

theorem runJob_heeded (h : e.Holds x bs) (hs : e.state ≠ .disabled) (v : Vehicle) (j : Job) :
    (e.runJob v j).1.Heeded j.heed x bs := by
  cases j with
  | broadcast =>
    have hn : Holds { e with sequence := e.sequence + 1 } x bs := h
    show (e.broadcastJob v).1.Holds x bs
    unfold broadcastJob
    split
    · exact hn.attempt _ _
    · exact h
  | request => exact cameraShot_heeded (requestLive_heeded h hs)
  | point =>
    have hp : Holds { e with pointer := (e.pointer.cycle e.settings v).1 } x bs := h
    show (e.pointJob v).1.Holds x bs
    unfold pointJob
    dsimp only
    split
    · exact hp.attempt _ _
    · exact hp
  | inputs =>
    show (e.inputsJob v).1.Holds x bs
    unfold inputsJob
    split
    · exact h.attempt _ _
    · exact h
  | receive => exact h.receiveFrame.of_link_eq (receiveJob_link h.wiring_eq)

theorem jobStep_heeded (h : e.Holds x bs) (hs : e.state ≠ .disabled) (now : Millis) (v : Vehicle) :
    (e.jobStep now v).1.Heeded (((e.rotation.poll now).2.map Job.heed).getD .leaves) x bs := by
  unfold jobStep
  obtain ⟨rotation, _ | j⟩ := e.rotation.poll now
  · exact h
  · exact runJob_heeded (e := { e with rotation }) h hs v j

theorem tick_heeded (h : e.Holds x bs) (now : Millis) (v : Vehicle) (connected : Bool) :
    (e.tick now v connected).1.Heeded (e.heed now) x bs := by
  cases hs : e.state with
  | disabled =>
    simp only [heed, hs, tick_of_disabled hs]
    exact h
  | searching =>
    simp only [heed, tick, hs, searchStep_of_serial h.wiring_eq]
    exact searchSerial_heeded h now
  | found =>
    have hn := h.of_link_eq (e.sendNotices_link connected)
    have hd : (e.sendNotices connected).1.state ≠ .disabled := by
      rw [state_sendNotices, hs]
      decide
    simp only [heed, tick, hs, ← (e.sendNotices_keeps connected).1]
    exact jobStep_heeded hn hd now v

end Engine

namespace Rig

/-! ## Operations and runs -/

/-- What an operation does with what was received. -/
def heed (r : Rig) : Operation → Heed
  | .tick => r.engine.heed r.clock.now
  | _ => .leaves

variable {r : Rig} {x : Receiver} {bs : Bytes}

theorem heed_of_ne_tick (r : Rig) {op : Operation} (h : op ≠ .tick) : r.heed op = .leaves := by
  cases op with
  | tick => exact absurd rfl h
  | _ => rfl

/-- Bytes come in behind those that wait, and an operation deals with what is there. -/
theorem perform_heeded (h : r.engine.Holds x bs) (op : Operation) :
    (r.perform op).1.engine.Heeded (r.heed op) x (bs ++ op.accepted (r.perform op).2) := by
  by_cases ho : op = .tick
  · subst ho
    have ht := Engine.tick_heeded h r.clock.now r.vehicle r.connected
    show (r.perform .tick).1.engine.Heeded (r.heed .tick) x (bs ++ [])
    rw [List.append_nil]
    exact ht
  · obtain ⟨l, p, hl, hp, rfl, rfl⟩ := h
    obtain ⟨m, q, hm, hr, hrx, -⟩ := perform_between ⟨hl, hp⟩ ho
    rw [r.heed_of_ne_tick ho]
    exact ⟨m, q, hm.link_eq, hm.on, hr, hrx⟩

/-- The bytes that came in over a run since the last operation that asked for something, or
else since `heard`. -/
def heardSince (asks : Rig → Operation → Bool) (r : Rig) (heard : Bytes) :
    List Operation → Bytes
  | [] => heard
  | op :: rest =>
    (r.perform op).1.heardSince asks
      (if asks r op then [] else heard ++ op.accepted (r.perform op).2) rest

/-- Who asks drops what there was; and who listens has just asked, or listened before and
left what there was. -/
structure Asking (asks : Rig → Operation → Bool) (Listens : Rig → Prop) : Prop where
  drops : ∀ r op, asks r op = true → r.heed op = .drops
  leaves : ∀ r op, r.engine.wiring = some .serial → asks r op = false →
    Listens (r.perform op).1 → Listens r ∧ r.heed op = .leaves

variable {asks : Rig → Operation → Bool} {Listens : Rig → Prop}

/-- After any run, a rig that listens has a new receiver, and what came in since it last
asked waits to be read. -/
theorem Asking.run_holds (ha : Asking asks Listens) (hx : x.filter = .device)
    (h : r.engine.Holds x bs) {heard : Bytes} (hl : Listens r → x = .new ∧ bs = heard)
    (ops : List Operation) :
    ∃ y cs, y.filter = .device ∧ (run perform r ops).1.engine.Holds y cs ∧
      (Listens (run perform r ops).1 → y = .new ∧ cs = r.heardSince asks heard ops) := by
  induction ops generalizing r x bs heard with
  | nil => exact ⟨x, bs, hx, h, hl⟩
  | cons op rest ih =>
    have hp := perform_heeded h op
    have hnew : x.reset = .new := by rw [x.reset_eq_ofFilter, hx]; rfl
    cases hk : asks r op with
    | true =>
      rw [ha.drops r op hk] at hp
      simp only [heardSince, hk]
      exact ih (show x.reset.filter = .device from hx) hp fun _ => ⟨hnew, rfl⟩
    | false =>
      have hb := ha.leaves r op h.wiring_eq hk
      simp only [heardSince, hk]
      cases hh : r.heed op with
      | leaves =>
        rw [hh] at hp
        refine ih hx hp fun hn => ?_
        obtain ⟨rfl, rfl⟩ := hl (hb hn).1
        exact ⟨rfl, rfl⟩
      | drops =>
        rw [hh] at hp hb
        exact ih (show x.reset.filter = .device from hx) hp fun hn => nomatch (hb hn).2
      | reads =>
        rw [hh] at hp hb
        obtain ⟨y, hy, hp⟩ := hp
        exact ih (hy.trans hx) hp fun hn => nomatch (hb hn).2

/-- From the start there is nothing to be read, and the receiver is new. -/
theorem Asking.run_new_holds (ha : Asking asks Listens) (settings : Settings) (vehicle : Vehicle)
    (connected ready : Bool) (start : Millis) (ops : List Operation) :
    let first := (new (some .serial) settings vehicle connected ready start).1
    ∃ x bs, (run perform first ops).1.engine.Holds x bs ∧
      (Listens (run perform first ops).1 → x = .new ∧ bs = first.heardSince asks [] ops) := by
  intro first
  have hfirst := has_new settings vehicle connected ready start
  have hx : first.engine.Holds .new [] := ⟨_, _, hfirst.link_eq, hfirst.on, rfl, rfl⟩
  obtain ⟨y, cs, -, hy, hl⟩ := ha.run_holds rfl hx (fun _ => ⟨rfl, rfl⟩) ops
  exact ⟨y, cs, hy, hl⟩

end Rig

end GimbalLink
