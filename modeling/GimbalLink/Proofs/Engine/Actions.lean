import GimbalLink.Proofs.Engine.StaleInput
import GimbalLink.Proofs.Listeners.Handing
import GimbalLink.Proofs.Timing.Polling
/-
  A tick's report and its link.

  Everything that a tick does with its link it does by four actions, and it reports each
  of them, in order. So what a tick makes of the link can be read off the report
  (`Link.Follows`), and what the four actions keep, a tick keeps.

  What is published on the bus comes in between ticks, if it comes in.

  What is proved:
    1. `Engine.tick_reports`: the link after a tick is the one that the report leads to.
    2. `Rig.publish_delivers`: a status that is published does nothing to the engine but come
       in, if somebody is told of it.
-/
namespace GimbalLink

namespace Link

/-- What some actions, one after the other, make of a link. A result that is reported of
sending is the one of that link. -/
inductive Follows : Link → List Action → Link → Prop where
  | nothing {l : Link} : Follows l [] l
  | flush {l m : Link} {rest : List Action} (h : Follows l.flush rest m) :
    Follows l (.flush :: rest) m
  | receive {l m : Link} {rest : List Action} (h : Follows l.receive.1 rest m) :
    Follows l (.receive :: rest) m
  | takeStatus {l m : Link} {rest : List Action}
    (h : Follows { l with channel := l.channel.takeStatus.1 } rest m) :
    Follows l (.takeStatus :: rest) m
  | send {l m : Link} {rest : List Action} {c : Command} {priority : Priority}
    (h : Follows (l.send c priority).1 rest m) :
    Follows l (.send c priority (l.send c priority).2 :: rest) m

theorem Follows.append {l m n : Link} {first rest : List Action} (h : l.Follows first m)
    (hr : m.Follows rest n) : l.Follows (first ++ rest) n := by
  induction h with
  | nothing => exact hr
  | flush _ ih => exact .flush (ih hr)
  | receive _ ih => exact .receive (ih hr)
  | takeStatus _ ih => exact .takeStatus (ih hr)
  | send _ ih => exact .send (ih hr)

end Link

namespace Engine

/-- An engine with a link and some actions reports what `e` has done with its own link. -/
def Reports (e : Engine) (done : Engine × List Action) : Prop :=
  ∀ l, e.link = some l → ∃ m, done.1.link = some m ∧ l.Follows done.2 m

variable {e : Engine}

/-! ## Sending and telling -/

theorem send_eq (e : Engine) (c : Command) (priority : Priority) :
    (e.send c priority).1 = { e with link := (e.send c priority).1.link } := by
  unfold Engine.send
  split
  · rfl
  · split <;> rfl

theorem attempt_eq (e : Engine) (c : Command) (priority : Priority) :
    (e.attempt c priority).1 = { e with link := (e.attempt c priority).1.link } :=
  e.send_eq c priority

/-- The link sends, or nothing is done with it. -/
theorem link_send (e : Engine) (c : Command) (priority : Priority) :
    (e.send c priority).1.link = e.link ∨
      ∃ l, e.link = some l ∧ (e.send c priority).1.link = some (l.send c priority).1 := by
  unfold Engine.send
  split
  · exact .inl rfl
  · split
    · exact .inl rfl
    · next l hl => exact .inr ⟨l, hl, rfl⟩

theorem state_attempt (e : Engine) (c : Command) (priority : Priority) :
    (e.attempt c priority).1.state = e.state := by
  rw [attempt_eq]
  rfl

theorem sendBanner_eq (e : Engine) :
    e.sendBanner.1 =
      { e with bannerPending := false,
               telemetry := { e.telemetry with notice := e.sendBanner.1.telemetry.notice } } := by
  unfold sendBanner
  split
  · rfl
  · next h =>
    rw [Bool.not_eq_true] at h
    rw [← h]

/-- Notices write two marks: the banner's and that of the armed state. -/
theorem sendNotices_eq (e : Engine) (connected : Bool) :
    (e.sendNotices connected).1 =
      { e with bannerPending := false,
               telemetry := { e.telemetry with
                 notice := (e.sendNotices connected).1.telemetry.notice } } := by
  have hb := e.sendBanner_eq
  cases connected with
  | false => exact hb
  | true =>
    show { e.sendBanner.1 with telemetry := e.sendBanner.1.telemetry.takeNotice.1 } = _
    rw [hb]
    rfl

theorem sendNotices_link (e : Engine) (connected : Bool) :
    (e.sendNotices connected).1.link = e.link := by
  rw [sendNotices_eq]

theorem state_sendNotices (e : Engine) (connected : Bool) :
    (e.sendNotices connected).1.state = e.state := by
  rw [sendNotices_eq]
  rfl

/-! ## The parts of a tick -/

/-- Nothing was done with the link, whatever was done with the rest. -/
theorem Reports.quiet {d : Engine} (h : d.link = e.link) : e.Reports (d, []) :=
  fun l hl => ⟨l, h.trans hl, .nothing⟩

theorem Reports.append {first rest : Engine × List Action} (h : e.Reports first)
    (hr : first.1.Reports rest) : e.Reports (rest.1, first.2 ++ rest.2) := by
  intro l hl
  obtain ⟨m, hm, hf⟩ := h l hl
  obtain ⟨n, hn, hg⟩ := hr m hm
  exact ⟨n, hn, hf.append hg⟩

/-- What is done with the rest after the actions does not show in the report. -/
theorem Reports.then {d : Engine} {done : Engine × List Action} (h : e.Reports done)
    (hd : d.link = done.1.link) : e.Reports (d, done.2) := by
  intro l hl
  obtain ⟨m, hm, hf⟩ := h l hl
  exact ⟨m, hd.trans hm, hf⟩

theorem attempt_reports (h : e.state ≠ .disabled) (c : Command) (priority : Priority) :
    e.Reports (e.attempt c priority) := by
  intro l hl
  simp only [attempt, Engine.send, if_neg h, hl]
  exact ⟨_, rfl, .send .nothing⟩

theorem flushLink_reports (e : Engine) : e.Reports e.flushLink := by
  intro l hl
  refine ⟨l.flush, ?_, .flush .nothing⟩
  rw [flushLink, hl]
  rfl

theorem receiveFrame_reports (e : Engine) :
    e.Reports (e.receiveFrame.1, e.receiveFrame.2.1) := by
  intro l hl
  simp only [receiveFrame, hl]
  exact ⟨_, rfl, .receive .nothing⟩

theorem receiveStatus_reports (e : Engine) :
    e.Reports (e.receiveStatus.1, e.receiveStatus.2.1) := by
  intro l hl
  simp only [receiveStatus, hl]
  exact ⟨_, rfl, .takeStatus .nothing⟩

/-- The gimbal is met once. -/
theorem meet_of_searching (h : e.state = .searching) (version : Option VersionInfo) :
    e.meet version =
      { e with search := { e.search with state := .found }, version,
               rotation := e.rotation.reset, bannerPending := true } := by
  obtain ⟨link, settings, ⟨state, limit, started, lastStep, requestNext⟩⟩ := e
  obtain rfl : state = .searching := h
  cases version <;> rfl

theorem meet_of_ne_searching (h : e.state ≠ .searching) (version : Option VersionInfo) :
    e.meet version = e := by
  have hs (event : SearchEvent) : e.search.state.after event = e.search.state :=
    SearchState.after_of_ne_searching h event
  unfold meet Search.handle
  simp only [hs]
  simp

theorem meet_link (e : Engine) (version : Option VersionInfo) :
    (e.meet version).link = e.link := by
  by_cases h : e.state = .searching
  · rw [meet_of_searching h]
  · rw [meet_of_ne_searching h]

/-- Looks into the inbox for the first broadcast. -/
def awaitBroadcast (e : Engine) : Engine × List Action :=
  let (e, actions, status) := e.receiveStatus
  match status with
  | none => (e, actions)
  | some s => ((e.applyStatus s).meet none, actions)

theorem searchBus_eq (e : Engine) (ready : Bool) (now : Millis) :
    e.searchBus ready now =
      if (e.search.checkLimit now).2 || !ready then
        ({ e with search := (e.search.checkLimit now).1 }, [])
      else awaitBroadcast { e with search := (e.search.checkLimit now).1 } := rfl

theorem awaitBroadcast_reports (e : Engine) : e.Reports e.awaitBroadcast := by
  have h := receiveStatus_reports e
  unfold awaitBroadcast
  dsimp only
  split
  · exact h
  · exact h.then (meet_link _ _)

theorem searchBus_reports (e : Engine) (ready : Bool) (now : Millis) :
    e.Reports (e.searchBus ready now) := by
  rw [searchBus_eq]
  split
  · exact .quiet rfl
  · exact awaitBroadcast_reports { e with search := (e.search.checkLimit now).1 }

/-- Looks for the version answer. -/
def awaitVersion (e : Engine) : Engine × List Action :=
  let (e, actions, frame) := e.receiveFrame
  match frame.map VersionInfo.ofFrame with
  | some (.ok version) => (e.meet (some version), actions)
  | _ => (e, actions)

theorem searchSerial_await {now : Millis} (h : (e.search.poll now).2 = .await) :
    e.searchSerial now = awaitVersion { e with search := (e.search.poll now).1 } := by
  simp only [searchSerial, h]
  rfl

theorem searchSerial_quiet {now : Millis}
    (h : (e.search.poll now).2 = .idle ∨ (e.search.poll now).2 = .timedOut) :
    e.searchSerial now = ({ e with search := (e.search.poll now).1 }, []) := by
  obtain h | h := h <;> simp only [searchSerial, h]

theorem requestVersion_reports (h : e.state ≠ .disabled) : e.Reports e.requestVersion :=
  (flushLink_reports e).append (attempt_reports (e := e.flushLink.1) h .getVersion .normal)

theorem awaitVersion_reports (e : Engine) : e.Reports e.awaitVersion := by
  have h := receiveFrame_reports e
  unfold awaitVersion
  dsimp only
  split
  · exact h.then (meet_link _ _)
  · exact h

theorem searchSerial_reports (e : Engine) (now : Millis) : e.Reports (e.searchSerial now) := by
  cases hs : (e.search.poll now).2 with
  | idle =>
    rw [searchSerial_quiet (.inl hs)]
    exact .quiet rfl
  | timedOut =>
    rw [searchSerial_quiet (.inr hs)]
    exact .quiet rfl
  | request =>
    have hp : (e.search.poll now).1.state = .searching := (Search.of_request hs).2.1
    rw [searchSerial_request hs]
    refine requestVersion_reports (e := { e with search := (e.search.poll now).1 }) ?_
    show (e.search.poll now).1.state ≠ .disabled
    rw [hp]
    decide
  | await =>
    rw [searchSerial_await hs]
    exact awaitVersion_reports { e with search := (e.search.poll now).1 }

theorem searchStep_reports (e : Engine) (now : Millis) : e.Reports (e.searchStep now) := by
  unfold searchStep
  split
  · exact .quiet rfl
  · split
    · exact searchBus_reports e _ now
    · exact searchSerial_reports e now

/-! ## Jobs -/

theorem broadcastJob_reports (h : e.state ≠ .disabled) (v : Vehicle) :
    e.Reports (e.broadcastJob v) := by
  unfold broadcastJob
  split
  · exact attempt_reports (e := { e with sequence := e.sequence + 1 }) h _ _
  · exact .quiet rfl

theorem requestLive_reports (h : e.state ≠ .disabled) : e.Reports e.requestLive := by
  unfold requestLive
  split
  · exact (flushLink_reports e).append
      (attempt_reports (e := e.flushLink.1) h (.getLiveData LiveFields.request) .normal)
  · exact .quiet rfl

theorem cameraShot_reports (h : e.state ≠ .disabled) : e.Reports e.cameraShot := by
  unfold cameraShot
  dsimp only
  split
  · exact attempt_reports (e := { e with cameraPending := false }) h _ _
  · exact .quiet rfl

theorem state_requestLive (e : Engine) : e.requestLive.1.state = e.state := by
  unfold requestLive
  split
  · exact state_attempt e.flushLink.1 (.getLiveData LiveFields.request) .normal
  · rfl

theorem requestJob_reports (h : e.state ≠ .disabled) : e.Reports e.requestJob := by
  have hs : e.requestLive.1.state ≠ .disabled := by rwa [state_requestLive]
  exact (requestLive_reports h).append (cameraShot_reports hs)

theorem pointJob_reports (h : e.state ≠ .disabled) (v : Vehicle) : e.Reports (e.pointJob v) := by
  unfold pointJob
  dsimp only
  split
  · exact attempt_reports (e := { e with pointer := (e.pointer.cycle e.settings v).1 }) h _ _
  · exact .quiet rfl

theorem inputsJob_reports (h : e.state ≠ .disabled) (v : Vehicle) :
    e.Reports (e.inputsJob v) := by
  unfold inputsJob
  split
  · exact attempt_reports h _ _
  · exact .quiet rfl

theorem receiveJob_reports (e : Engine) : e.Reports e.receiveJob := by
  unfold receiveJob
  split
  · exact .quiet rfl
  · have h := receiveStatus_reports e
    dsimp only
    split
    · exact h
    · exact h.then rfl
  · have h := receiveFrame_reports e
    dsimp only
    split
    · exact h.then rfl
    · exact h

theorem runJob_reports (h : e.state ≠ .disabled) (v : Vehicle) (j : Job) :
    e.Reports (e.runJob v j) := by
  cases j with
  | broadcast => exact broadcastJob_reports h v
  | request => exact requestJob_reports h
  | point => exact pointJob_reports h v
  | inputs => exact inputsJob_reports h v
  | receive => exact receiveJob_reports e

theorem jobStep_reports (h : e.state ≠ .disabled) (now : Millis) (v : Vehicle) :
    e.Reports (e.jobStep now v) := by
  unfold jobStep
  dsimp only
  split
  · exact .quiet rfl
  · exact runJob_reports (e := { e with rotation := (e.rotation.poll now).1 }) h v _

/-- The link after a tick is the one that its report leads to. -/
theorem tick_reports (e : Engine) (now : Millis) (v : Vehicle) (connected : Bool) :
    e.Reports ((e.tick now v connected).1, (e.tick now v connected).2.actions) := by
  unfold tick
  split
  · exact .quiet rfl
  · exact searchStep_reports e now
  · next hs =>
    have hn : (e.sendNotices connected).1.state ≠ .disabled := by
      rw [state_sendNotices, hs]
      decide
    intro l hl
    exact jobStep_reports hn now v l ((sendNotices_link e connected).trans hl)

/-! ## Between ticks -/

theorem deliver_deliver (e : Engine) (s : BusStatus) :
    (e.mapChannel (·.deliver s)).mapChannel (·.deliver s) = e.mapChannel (·.deliver s) := by
  obtain ⟨link⟩ := e
  cases link with
  | none => rfl
  | some l =>
    obtain ⟨channel, receiver⟩ := l
    cases channel <;> rfl

end Engine

namespace Rig

/-- A status that was published went to somebody. -/
def heardBy : Except RegistryError Nat → Bool
  | .ok (_ + 1) => true
  | _ => false

/-- However often a status comes in, it is in the inbox. -/
theorem tell_deliver (e : Engine) (s : BusStatus) (ls : List Unit) :
    Registry.tell (fun _ s (e : Engine) => e.mapChannel (·.deliver s)) e (ls.map (·, s)) =
      if ls.isEmpty then e else e.mapChannel (·.deliver s) := by
  induction ls generalizing e with
  | nil => rfl
  | cons l rest ih =>
    refine (ih (e.mapChannel (·.deliver s))).trans ?_
    rw [e.deliver_deliver]
    cases rest <;> rfl

/-- Whether a status comes in when it is published shows in the answer. That, and all that the
registry does about it, does not depend on the engine. -/
theorem publish_delivers (registry : Registry Unit BusStatus) (node : UInt8) (s : BusStatus) :
    ∃ (after : Registry Unit BusStatus) (result : Except RegistryError Nat), ∀ e : Engine,
      registry.publish e node s handle =
        (after, if heardBy result then e.mapChannel (·.deliver s) else e, result) := by
  have hp (e : Engine) := registry.publish_acts (fun _ s e => e.mapChannel (·.deliver s)) e node s
  have hh := registry.heard_publish node s
  generalize registry.publish [] node s Registry.hear = published at hp hh
  obtain ⟨after, heard, result⟩ := published
  refine ⟨after, result, fun e => (hp e).trans ?_⟩
  obtain ⟨ls, h⟩ | ⟨err, h⟩ := hh
  · obtain ⟨rfl, rfl⟩ : heard = ls.map (·, s) ∧ result = .ok ls.length := by simpa using h
    rw [tell_deliver]
    cases ls <;> rfl
  · obtain ⟨rfl, rfl⟩ : heard = [] ∧ result = .error err := by simpa using h
    rfl

end Rig

end GimbalLink
