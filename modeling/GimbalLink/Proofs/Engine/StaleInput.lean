import GimbalLink.Engine.Rig
import GimbalLink.Proofs.Channel.Sending
import GimbalLink.Proofs.Frame.Registers
import GimbalLink.Run
/-
  Stale input on the serial channel.

  Before it asks for something the engine drops what was received. So it does in two
  places: in the request step of the search, and in the request job. A tick with one of
  these (`Engine.AsksAnew`) cannot depend on bytes that came in before, nor on a frame of
  which they were a part, and neither can anything after it.

  Blank input is an empty queue and an idle receiver (`Link.blank`). The tick's notices
  come before the request and do not look at the input, so it may be made blank at once;
  two rigs that differ in their input alone are then one.

  What is proved:
    1. `Link.flush_eq_blank`: a flush leaves blank input, however much there was and
       whatever the receiver was in.
    2. `Engine.tick_blank`: a tick that asks anew is the tick with blank input.
    3. `Rig.run_eq_of_asksAnew`: from such a tick on, two rigs that agree but for their
       input have the same runs.
-/
namespace GimbalLink

/-! ## Blank input -/

/-- The channel with nothing waiting to be read. -/
def Channel.blank : Channel → Channel
  | serial port => serial port.clear
  | bus link => bus link

/-- The link with nothing waiting to be read and nothing of a frame received. -/
def Link.blank (l : Link) : Link := ⟨l.channel.blank, { l.receiver with phase := .idle }⟩

namespace Link

theorem discard_available (c : Channel) : discard c.available c = c.blank := by
  cases c with
  | serial port =>
    rw [Channel.available, Port.available, discard_serial, List.drop_length]
    rfl
  | bus link => rfl

/-- A flush empties the queue and makes the receiver as it was made, whatever was there. -/
theorem flush_eq_blank (l : Link) : l.flush = l.blank := by
  rw [flush, discard_available]
  rfl

theorem blank_blank (l : Link) : l.blank.blank = l.blank := by
  obtain ⟨channel, receiver⟩ := l
  cases channel <;> rfl

theorem kind_blank (l : Link) : l.blank.channel.kind = l.channel.kind := by
  obtain ⟨channel, receiver⟩ := l
  cases channel <;> rfl

end Link

namespace Engine

def blank (e : Engine) : Engine := { e with link := e.link.map Link.blank }

/-- The tick at `now` drops what was received and asks anew: it takes the request step of
the search, or does the request job. -/
def AsksAnew (e : Engine) (now : Millis) : Prop :=
  e.wiring = some .serial ∧
    (e.state = .searching ∧ (e.search.poll now).2 = .request ∨
      e.state = .found ∧ (e.rotation.poll now).2 = some .request)

variable {e : Engine} {now : Millis}

theorem flushLink_blank (e : Engine) : e.blank.flushLink = e.flushLink := by
  have hl : (e.link.map Link.blank).map Link.flush = e.link.map Link.flush := by
    rw [Option.map_map]
    apply Option.map_congr
    intro l _
    rw [Function.comp_apply, Link.flush_eq_blank, Link.flush_eq_blank, Link.blank_blank]
  simp only [flushLink, blank, hl]

theorem wiring_blank (e : Engine) : e.blank.wiring = e.wiring := by
  rw [wiring, wiring, blank, Option.map_map]
  apply Option.map_congr
  intro l _
  exact l.kind_blank

theorem sendBanner_blank (e : Engine) :
    e.blank.sendBanner = (e.sendBanner.1.blank, e.sendBanner.2) := by
  have hb : e.blank.bannerPending = e.bannerPending := rfl
  rw [sendBanner, sendBanner, hb]
  cases e.bannerPending <;> rfl

theorem sendArmed_blank (e : Engine) (connected : Bool) :
    e.blank.sendArmed connected =
      ((e.sendArmed connected).1.blank, (e.sendArmed connected).2) := by
  cases connected <;> rfl

theorem sendNotices_blank (e : Engine) (connected : Bool) :
    e.blank.sendNotices connected =
      ((e.sendNotices connected).1.blank, (e.sendNotices connected).2) := by
  simp only [sendNotices, sendBanner_blank, sendArmed_blank]

/-- Notices leave alone what a job depends on. -/
theorem sendNotices_keeps (e : Engine) (connected : Bool) :
    (e.sendNotices connected).1.rotation = e.rotation ∧
      (e.sendNotices connected).1.kind = e.kind := by
  have hb : e.sendBanner.1.rotation = e.rotation ∧ e.sendBanner.1.kind = e.kind := by
    rw [sendBanner]
    split <;> exact ⟨rfl, rfl⟩
  cases connected <;> exact hb

theorem requestJob_blank (h : e.kind = some .serial) : e.blank.requestJob = e.requestJob := by
  have hk : e.blank.kind = some .serial := by
    rw [← h, kind, kind, wiring_blank]
    rfl
  simp only [requestJob, requestLive, if_pos h, if_pos hk, flushLink_blank]

theorem jobStep_request (h : (e.rotation.poll now).2 = some .request) (v : Vehicle) :
    e.jobStep now v = requestJob { e with rotation := (e.rotation.poll now).1 } := by
  simp only [jobStep, h]
  rfl

theorem jobStep_blank (hk : e.kind = some .serial)
    (h : (e.rotation.poll now).2 = some .request) (v : Vehicle) :
    e.blank.jobStep now v = e.jobStep now v := by
  rw [jobStep_request h, jobStep_request (e := e.blank) h]
  exact requestJob_blank (e := { e with rotation := (e.rotation.poll now).1 }) hk

/-- Drops what was received and asks for the version. -/
def requestVersion (e : Engine) : Engine × List Action :=
  let (e, flushed) := e.flushLink
  let (e, sent) := e.attempt .getVersion .normal
  (e, flushed ++ sent)

theorem requestVersion_blank (e : Engine) : e.blank.requestVersion = e.requestVersion := by
  simp only [requestVersion, flushLink_blank]

theorem searchSerial_request (h : (e.search.poll now).2 = .request) :
    e.searchSerial now = requestVersion { e with search := (e.search.poll now).1 } := by
  simp only [searchSerial, h]
  rfl

theorem searchSerial_blank (h : (e.search.poll now).2 = .request) :
    e.blank.searchSerial now = e.searchSerial now := by
  have hb : (e.blank.search.poll now).2 = .request := h
  rw [searchSerial_request h, searchSerial_request hb]
  exact requestVersion_blank { e with search := (e.search.poll now).1 }

theorem searchStep_of_serial (h : e.wiring = some .serial) (now : Millis) :
    e.searchStep now = e.searchSerial now := by
  obtain ⟨l, hl, hk⟩ := Option.map_eq_some_iff.1 h
  simp only [searchStep, hl, hk]

theorem asksAnew_blank : e.blank.AsksAnew now ↔ e.AsksAnew now := by
  rw [AsksAnew, AsksAnew, wiring_blank]
  rfl

/-- A tick that asks anew does the same, and leaves the same, whatever had been received. -/
theorem tick_blank (h : e.AsksAnew now) (v : Vehicle) (connected : Bool) :
    e.blank.tick now v connected = e.tick now v connected := by
  obtain ⟨hw, ⟨hs, hr⟩ | ⟨hs, hr⟩⟩ := h
  · have hb : e.blank.state = .searching := hs
    have hwb : e.blank.wiring = some .serial := e.wiring_blank.trans hw
    simp only [tick, hs, hb, searchStep_of_serial hw, searchStep_of_serial hwb,
      searchSerial_blank hr]
  · have hb : e.blank.state = .found := hs
    obtain ⟨hrot, hkind⟩ := e.sendNotices_keeps connected
    have hk : (e.sendNotices connected).1.kind = some .serial := by
      rw [hkind, kind, hs]
      exact hw
    -- The notices come before the job that is due, and it is due after them as before.
    rw [← hrot] at hr
    simp only [tick, hs, hb, sendNotices_blank, jobStep_blank hk hr]

end Engine

namespace Rig

variable {r s : Rig}

def blank (r : Rig) : Rig := { r with engine := r.engine.blank }

/-- The two agree on everything but the bytes that wait to be read and what the receiver
has of a frame. -/
def AgreeButInput (r s : Rig) : Prop := r.blank = s.blank

theorem tick_blank (h : r.engine.AsksAnew r.clock.now) : r.blank.tick = r.tick := by
  have ht := Engine.tick_blank h r.vehicle r.connected
  simp only [tick, blank, ht]

theorem AgreeButInput.asksAnew (h : r.AgreeButInput s)
    (hr : r.engine.AsksAnew r.clock.now) : s.engine.AsksAnew s.clock.now := by
  rw [← Engine.asksAnew_blank] at hr ⊢
  have hb : r.blank = s.blank := h
  show s.blank.engine.AsksAnew s.blank.clock.now
  rw [← hb]
  exact hr

/-- Stale input never matters. Two rigs that agree on everything but their input have the
same tick, if it asks anew, and from then on they are the same in everything. Nor do the
registers of the receiver show what they held before. -/
theorem run_eq_of_asksAnew (h : r.AgreeButInput s) (hr : r.engine.AsksAnew r.clock.now)
    (ops : List Operation) :
    run perform r (.tick :: ops) = run perform s (.tick :: ops) ∧
      ∀ (l : Link) (x : Registers), x.filter = l.receiver.filter →
        ∀ uses, (run Registers.perform x.reset uses).2 =
          (run Receiver.perform l.flush.receiver uses).2 := by
  have ht : r.tick = s.tick := by
    calc r.tick = r.blank.tick := (tick_blank hr).symm
      _ = s.blank.tick := congrArg tick h
      _ = s.tick := tick_blank (h.asksAnew hr)
  have hp : r.perform .tick = s.perform .tick := by
    simp only [perform, ht]
  refine ⟨?_, ?_⟩
  · simp only [run, hp]
  · intro l x hx uses
    rw [x.run_reset, hx]
    rfl

/-- A rig that has received nothing. -/
def quiet : Rig :=
  (new (some .serial) .standard
    { channels := [], stabilized := default, fix := .none, location := none,
      attitude := default, velocity := none, healthy := true, initialised := true,
      horizontalVelocity := false, armed := false } false true 0).1

/-- Half a frame in the registers. -/
def noise : Registers := ⟨.device, .awaitPayload, .device, 2, 1, [0x31]⟩

/-- A link with half a frame received, and more of it waiting. -/
def noisyLink : Link := ⟨.serial { Port.new with rx := [0x02, 0x30] }, noise.view⟩

def noisy : Rig := { quiet with engine := { quiet.engine with link := some noisyLink } }

/-- An answer comes in, is read, and what was sent is taken. -/
def session : List Operation := [.inject [0xfb, 0, 1], .advance 100, .tick, .takeTx Port.capacity]

theorem run_noisy :
    quiet.engine.link ≠ noisy.engine.link ∧ quiet.AgreeButInput noisy ∧
      quiet.engine.AsksAnew quiet.clock.now ∧
      run perform quiet (.tick :: session) = run perform noisy (.tick :: session) ∧
      noise.filter = noisyLink.receiver.filter ∧
      (run Registers.perform noise.reset [.feed 0xfb, .take]).2 =
        (run Receiver.perform noisyLink.flush.receiver [.feed 0xfb, .take]).2 := by
  have h : quiet.AgreeButInput noisy := rfl
  have hr : quiet.engine.AsksAnew quiet.clock.now := ⟨rfl, .inl ⟨rfl, rfl⟩⟩
  obtain ⟨hrun, hregisters⟩ := run_eq_of_asksAnew h hr session
  exact ⟨by decide, h, hr, hrun, rfl, hregisters noisyLink noise rfl _⟩

end Rig

end GimbalLink
