import GimbalLink.Proofs.Engine.Transmission
import Mathlib.Data.List.Flatten
/-
  A full port, and what it cannot do.

  What the transmit side of the port refuses is dropped, and nothing but the wire shows it.
  Two rigs that agree on all but the transmit side (`Rig.muted`) go on to agree, however
  full their ports are, and they try to send the same frames. Each port takes some of these,
  and every one of them whole.

  What is proved:
    1. `Engine.tick_alike`: with the transmit side left out, a tick is that of the engine
       without it.
    2. `Rig.perform_muted`, `Rig.muted_of_not_shows`: so it is with every operation, and one
       that works on the transmit side alone does not show.
    3. `Rig.seen_filter`: what shows of a run, and what it tries to send, is that of the run
       with the operations on the transmit side left out.
    4. `Rig.run_backpressure`: so any two runs from the start that differ in those alone show
       the same, and each transmits some of the same frames.
-/
namespace GimbalLink

/-! ## Without the transmit side -/

/-- The port without its transmit side. -/
def Port.muted (p : Port) : Port := { p with tx := [], txLimit := 0 }

def Channel.muted : Channel → Channel
  | serial port => serial port.muted
  | bus link => bus link

def Link.muted (l : Link) : Link := { l with channel := l.channel.muted }

/-- The action without what became of it. -/
def Action.muted : Action → Action
  | .send c priority _ => .send c priority (.ok 0)
  | a => a

namespace Link

theorem muted_muted (l : Link) : l.muted.muted = l.muted := by
  obtain ⟨channel, receiver⟩ := l
  cases channel <;> rfl

theorem kind_muted (l : Link) : l.muted.channel.kind = l.channel.kind := by
  obtain ⟨channel, receiver⟩ := l
  cases channel <;> rfl

theorem isReady_muted (l : Link) : l.muted.channel.isReady = l.channel.isReady := by
  obtain ⟨channel, receiver⟩ := l
  cases channel <;> rfl

theorem takeStatus_muted (l : Link) :
    l.muted.channel.takeStatus = (l.channel.takeStatus.1.muted, l.channel.takeStatus.2) := by
  obtain ⟨channel, receiver⟩ := l
  cases channel <;> rfl

theorem flush_muted (l : Link) : l.muted.flush = l.flush.muted := by
  rw [flush_eq_blank, flush_eq_blank]
  obtain ⟨channel, receiver⟩ := l
  cases channel <;> rfl

theorem drain_muted (n : Nat) (l : Link) : drain n l.muted = (drain n l).muted := by
  induction n generalizing l with
  | zero => rfl
  | succ n ih =>
    obtain ⟨channel, receiver⟩ := l
    cases channel with
    | bus link => rfl
    | serial port =>
      obtain ⟨tx, rx, limit⟩ := port
      cases rx with
      | nil => rfl
      | cons b rest => exact ih ⟨.serial ⟨tx, rest, limit⟩, (receiver.feed b).1⟩

theorem receive_muted (l : Link) : l.muted.receive = (l.receive.1.muted, l.receive.2) := by
  simp only [receive, drain_muted]
  rfl

/-- What is sent shows on the transmit side of a port, and nowhere else. -/
theorem sendFrame_muted (l : Link) (f : Frame) (priority : Priority) :
    (l.muted.sendFrame f priority).1.muted = (l.sendFrame f priority).1.muted := by
  rw [sendFrame_eq, sendFrame_eq]
  obtain ⟨channel, receiver⟩ := l
  cases channel with
  | bus link => rfl
  | serial port =>
    split <;> split <;> rfl

theorem send_muted (l : Link) (c : Command) (priority : Priority) :
    (l.muted.send c priority).1.muted = (l.send c priority).1.muted := by
  simp only [send, c.toFrame_eq_ok .noAck]
  exact l.sendFrame_muted _ priority

end Link

namespace Engine

def muted (e : Engine) : Engine := { e with link := e.link.map Link.muted }

/-- The two have done the same, but for the transmit side. -/
def Alike (x y : Engine × List Action) : Prop :=
  x.1.muted = y.1.muted ∧ x.2.map Action.muted = y.2.map Action.muted

variable {e : Engine}

theorem muted_muted (e : Engine) : e.muted.muted = e.muted := by
  have hl : (e.link.map Link.muted).map Link.muted = e.link.map Link.muted := by
    rw [Option.map_map]
    apply Option.map_congr
    intro l _
    exact l.muted_muted
  simp only [muted, hl]

theorem Alike.refl (x : Engine × List Action) : Alike x x := ⟨rfl, rfl⟩

/-- What is alike on an engine and on its muted one is alike on any two that agree. -/
theorem Alike.congr {g : Engine → Engine × List Action} (hg : ∀ e, Alike (g e.muted) (g e))
    {d : Engine} (h : d.muted = e.muted) : Alike (g d) (g e) := by
  have hd := hg d
  have he := hg e
  rw [h] at hd
  exact ⟨hd.1.symm.trans he.1, hd.2.symm.trans he.2⟩

theorem Alike.append {x y x' y' : Engine × List Action} (h : Alike x y) (h' : Alike x' y') :
    Alike (x'.1, x.2 ++ x'.2) (y'.1, y.2 ++ y'.2) := by
  refine ⟨h'.1, ?_⟩
  simp only [List.map_append, h.2, h'.2]

/-! ## The parts of a tick -/

theorem send_alike (e : Engine) (c : Command) (priority : Priority) :
    (e.muted.send c priority).1.muted = (e.send c priority).1.muted := by
  have hs : e.muted.state = e.state := rfl
  unfold Engine.send
  rw [hs]
  split
  · exact e.muted_muted
  · cases hl : e.link with
    | none => simp only [muted, hl]; rfl
    | some l =>
      have hm : e.muted.link = some l.muted := by
        rw [muted, hl]
        rfl
      simp only [hm]
      simp only [muted, Option.map_some, l.send_muted]

theorem attempt_alike (e : Engine) (c : Command) (priority : Priority) :
    Alike (e.muted.attempt c priority) (e.attempt c priority) :=
  ⟨e.send_alike c priority, rfl⟩

theorem flushLink_muted (e : Engine) :
    e.muted.flushLink = (e.flushLink.1.muted, e.flushLink.2) := by
  have hl : (e.link.map Link.muted).map Link.flush = (e.link.map Link.flush).map Link.muted := by
    rw [Option.map_map, Option.map_map]
    apply Option.map_congr
    intro l _
    exact l.flush_muted
  simp only [flushLink, muted, hl]

theorem wiring_muted (e : Engine) : e.muted.wiring = e.wiring := by
  rw [wiring, wiring, muted, Option.map_map]
  apply Option.map_congr
  intro l _
  exact l.kind_muted

theorem receiveFrame_muted (e : Engine) :
    e.muted.receiveFrame = (e.receiveFrame.1.muted, e.receiveFrame.2) := by
  unfold receiveFrame
  cases hl : e.link with
  | none => simp only [muted, hl]; rfl
  | some l => simp only [muted, hl, Option.map_some, l.receive_muted]

theorem receiveStatus_muted (e : Engine) :
    e.muted.receiveStatus = (e.receiveStatus.1.muted, e.receiveStatus.2) := by
  unfold receiveStatus
  cases hl : e.link with
  | none => simp only [muted, hl]; rfl
  | some l => simp only [muted, hl, Option.map_some, l.takeStatus_muted]; rfl

theorem meet_muted (e : Engine) (version : Option VersionInfo) :
    e.muted.meet version = (e.meet version).muted := by
  by_cases h : e.state = .searching
  · rw [meet_of_searching h, meet_of_searching (e := e.muted) h]
    rfl
  · rw [meet_of_ne_searching h, meet_of_ne_searching (e := e.muted) h]

theorem sendNotices_muted (e : Engine) (connected : Bool) :
    e.muted.sendNotices connected =
      ((e.sendNotices connected).1.muted, (e.sendNotices connected).2) := by
  have hb : e.muted.sendBanner = (e.sendBanner.1.muted, e.sendBanner.2) := by
    have hp : e.muted.bannerPending = e.bannerPending := rfl
    rw [sendBanner, sendBanner, hp]
    cases e.bannerPending <;> rfl
  simp only [sendNotices, hb]
  cases connected <;> rfl

theorem awaitBroadcast_alike (e : Engine) : Alike e.muted.awaitBroadcast e.awaitBroadcast := by
  simp only [awaitBroadcast, receiveStatus_muted]
  obtain ⟨d, actions, _ | s⟩ := e.receiveStatus
  · exact ⟨d.muted_muted, rfl⟩
  · have hm : (d.muted.applyStatus s).meet none = ((d.applyStatus s).meet none).muted :=
      meet_muted (d.applyStatus s) none
    exact ⟨(congrArg muted hm).trans (muted_muted _), rfl⟩

theorem searchBus_alike (e : Engine) (ready : Bool) (now : Millis) :
    Alike (e.muted.searchBus ready now) (e.searchBus ready now) := by
  rw [searchBus_eq, searchBus_eq, show e.muted.search = e.search from rfl]
  split
  · exact ⟨muted_muted { e with search := (e.search.checkLimit now).1 }, rfl⟩
  · exact awaitBroadcast_alike { e with search := (e.search.checkLimit now).1 }

theorem requestVersion_alike (e : Engine) : Alike e.muted.requestVersion e.requestVersion := by
  simp only [requestVersion, flushLink_muted]
  exact Alike.append (.refl (e.flushLink.1, e.flushLink.2))
    (e.flushLink.1.attempt_alike .getVersion .normal)

theorem awaitVersion_alike (e : Engine) : Alike e.muted.awaitVersion e.awaitVersion := by
  simp only [awaitVersion, receiveFrame_muted]
  obtain ⟨d, actions, frame⟩ := e.receiveFrame
  obtain _ | _ | version := frame.map VersionInfo.ofFrame
  · exact ⟨d.muted_muted, rfl⟩
  · exact ⟨d.muted_muted, rfl⟩
  · exact ⟨(congrArg muted (d.meet_muted (some version))).trans (muted_muted _), rfl⟩

theorem searchSerial_alike (e : Engine) (now : Millis) :
    Alike (e.muted.searchSerial now) (e.searchSerial now) := by
  have hm : (e.muted.search.poll now).2 = (e.search.poll now).2 := rfl
  cases hs : (e.search.poll now).2 with
  | idle =>
    rw [searchSerial_quiet (.inl hs), searchSerial_quiet (.inl (hm.trans hs))]
    exact ⟨muted_muted { e with search := (e.search.poll now).1 }, rfl⟩
  | timedOut =>
    rw [searchSerial_quiet (.inr hs), searchSerial_quiet (.inr (hm.trans hs))]
    exact ⟨muted_muted { e with search := (e.search.poll now).1 }, rfl⟩
  | request =>
    rw [searchSerial_request hs, searchSerial_request (hm.trans hs)]
    exact requestVersion_alike { e with search := (e.search.poll now).1 }
  | await =>
    rw [searchSerial_await hs, searchSerial_await (hm.trans hs)]
    exact awaitVersion_alike { e with search := (e.search.poll now).1 }

theorem searchStep_alike (e : Engine) (now : Millis) :
    Alike (e.muted.searchStep now) (e.searchStep now) := by
  cases hl : e.link with
  | none =>
    have hm : e.muted.link = none := by rw [muted, hl]; rfl
    simp only [searchStep, hl, hm]
    exact ⟨e.muted_muted, rfl⟩
  | some l =>
    have hm : e.muted.link = some l.muted := by rw [muted, hl]; rfl
    simp only [searchStep, hl, hm, l.kind_muted, l.isReady_muted]
    cases l.channel.kind with
    | bus => exact e.searchBus_alike l.channel.isReady now
    | serial => exact e.searchSerial_alike now

/-! ## Jobs -/

theorem broadcastJob_alike (e : Engine) (v : Vehicle) :
    Alike (e.muted.broadcastJob v) (e.broadcastJob v) := by
  unfold broadcastJob
  rw [show e.muted.settings = e.settings from rfl]
  split
  · exact attempt_alike { e with sequence := e.sequence + 1 } _ _
  · exact ⟨e.muted_muted, rfl⟩

theorem requestLive_alike (e : Engine) : Alike e.muted.requestLive e.requestLive := by
  have hk : e.muted.kind = e.kind := by
    rw [kind, kind, wiring_muted]
    rfl
  simp only [requestLive, hk, flushLink_muted]
  split
  · exact Alike.append (.refl (e.flushLink.1, e.flushLink.2))
      (e.flushLink.1.attempt_alike (.getLiveData LiveFields.request) .normal)
  · exact ⟨e.muted_muted, rfl⟩

theorem cameraShot_alike (e : Engine) : Alike e.muted.cameraShot e.cameraShot := by
  unfold cameraShot
  rw [show e.muted.cameraPending = e.cameraPending from rfl,
    show e.muted.settings = e.settings from rfl]
  dsimp only
  split
  · exact attempt_alike { e with cameraPending := false } _ _
  · exact ⟨muted_muted { e with cameraPending := false }, rfl⟩

theorem requestJob_alike (e : Engine) : Alike e.muted.requestJob e.requestJob :=
  e.requestLive_alike.append (Alike.congr cameraShot_alike e.requestLive_alike.1)

theorem pointJob_alike (e : Engine) (v : Vehicle) : Alike (e.muted.pointJob v) (e.pointJob v) := by
  unfold pointJob
  rw [show e.muted.pointer.cycle e.muted.settings v = e.pointer.cycle e.settings v from rfl]
  obtain ⟨pointer, _ | ⟨aim, _ | c⟩⟩ := e.pointer.cycle e.settings v
  · exact ⟨muted_muted { e with pointer }, rfl⟩
  · exact ⟨muted_muted { e with pointer }, rfl⟩
  · exact attempt_alike { e with pointer } c .normal

theorem inputsJob_alike (e : Engine) (v : Vehicle) :
    Alike (e.muted.inputsJob v) (e.inputsJob v) := by
  unfold inputsJob
  rw [show e.muted.settings = e.settings from rfl]
  split
  · exact e.attempt_alike _ _
  · exact ⟨e.muted_muted, rfl⟩

theorem receiveJob_alike (e : Engine) : Alike e.muted.receiveJob e.receiveJob := by
  simp only [receiveJob, wiring_muted, receiveStatus_muted, receiveFrame_muted]
  obtain _ | _ | _ := e.wiring
  · exact ⟨e.muted_muted, rfl⟩
  · obtain ⟨d, actions, frame⟩ := e.receiveFrame
    obtain _ | _ | data := frame.map LiveData.ofFrame
    · exact ⟨d.muted_muted, rfl⟩
    · exact ⟨d.muted_muted, rfl⟩
    · exact ⟨muted_muted { d with telemetry := (d.telemetry.applyLive data).1 }, rfl⟩
  · obtain ⟨d, actions, _ | s⟩ := e.receiveStatus
    · exact ⟨d.muted_muted, rfl⟩
    · exact ⟨muted_muted (d.applyStatus s), rfl⟩

theorem runJob_alike (e : Engine) (v : Vehicle) (j : Job) :
    Alike (e.muted.runJob v j) (e.runJob v j) := by
  cases j with
  | broadcast => exact e.broadcastJob_alike v
  | request => exact e.requestJob_alike
  | point => exact e.pointJob_alike v
  | inputs => exact e.inputsJob_alike v
  | receive => exact e.receiveJob_alike

theorem jobStep_alike (e : Engine) (now : Millis) (v : Vehicle) :
    Alike (e.muted.jobStep now v) (e.jobStep now v) := by
  unfold jobStep
  rw [show e.muted.rotation = e.rotation from rfl]
  obtain ⟨rotation, _ | j⟩ := e.rotation.poll now
  · exact ⟨muted_muted { e with rotation }, rfl⟩
  · exact runJob_alike { e with rotation } v j

/-- With the transmit side left out, a tick is that of the engine without it; and it says
the same. -/
theorem tick_alike (e : Engine) (now : Millis) (v : Vehicle) (connected : Bool) :
    Alike ((e.muted.tick now v connected).1, (e.muted.tick now v connected).2.actions)
        ((e.tick now v connected).1, (e.tick now v connected).2.actions) ∧
      (e.muted.tick now v connected).2.texts = (e.tick now v connected).2.texts := by
  unfold tick
  rw [show e.muted.state = e.state from rfl]
  cases e.state with
  | disabled => exact ⟨⟨e.muted_muted, rfl⟩, rfl⟩
  | searching => exact ⟨e.searchStep_alike now, rfl⟩
  | found =>
    simp only [sendNotices_muted]
    exact ⟨jobStep_alike _ now v, trivial⟩

end Engine

namespace Rig

/-! ## Operations -/

def muted (r : Rig) : Rig := { r with engine := r.engine.muted, idlePort := r.idlePort.muted }

/-- The outcome without what became of what was to be sent. -/
def Outcome.muted : Outcome → Outcome
  | .ticked report => .ticked { report with actions := report.actions.map Action.muted }
  | .sent _ => .sent (.ok 0)
  | o => o

/-- Whether the operation does more than limit or empty the transmit side. -/
def Operation.shows : Operation → Bool
  | .setLimit _ | .takeTx _ => false
  | _ => true

/-- What shows of an operation: what it leaves, and what comes of it. -/
def glimpse (r : Rig) (op : Operation) : Rig × Outcome :=
  ((r.perform op).1.muted, (r.perform op).2.muted)

variable {r s : Rig}

/-- What shows of an operation depends on what shows of the rig. -/
theorem perform_muted (r : Rig) {op : Operation} (h : op.shows = true) :
    r.muted.glimpse op = r.glimpse op := by
  obtain ⟨engine, clock, vehicle, connected, registry, idle⟩ := r
  have hs (c : Command) := congrArg
    (fun e : Engine => (Rig.mk e clock vehicle connected registry idle.muted, Outcome.sent (.ok 0)))
    (engine.send_alike c .normal)
  cases op with
  | setLimit limit => cases h
  | takeTx room => cases h
  | tick =>
    obtain ⟨⟨he, ha⟩, ht⟩ := engine.tick_alike clock.now vehicle connected
    simp only [glimpse, perform, tick, muted, Outcome.muted, Port.muted, he, ha, ht]
  | sendHome => exact hs (homeCommand vehicle.location)
  | sendTarget place => exact hs (targetCommand place)
  | publish node status =>
    obtain ⟨after, result, hp⟩ := publish_delivers registry node status
    simp only [glimpse, perform, publish, muted, hp]
    obtain ⟨_ | ⟨_ | _, _⟩⟩ := engine <;> cases heardBy result <;> rfl
  | setMode mode =>
    simp only [glimpse, perform, onEngine, Engine.setMode,
      show (muted ⟨engine, clock, vehicle, connected, registry, idle⟩).engine.state = engine.state
        from rfl]
    split <;> obtain ⟨_ | ⟨_ | _, _⟩⟩ := engine <;> rfl
  | _ => obtain ⟨_ | ⟨_ | _, _⟩⟩ := engine <;> rfl

/-- An operation that works on the transmit side alone does not show, and sends nothing. -/
theorem muted_of_not_shows (r : Rig) {op : Operation} (h : op.shows = false) :
    (r.perform op).1.muted = r.muted ∧ r.attempts op = [] := by
  obtain ⟨⟨_ | ⟨_ | _, _⟩⟩, clock, vehicle, connected, registry, idle⟩ := r <;>
    cases op with
    | setLimit limit => exact ⟨rfl, rfl⟩
    | takeTx room => exact ⟨rfl, rfl⟩
    | _ => cases h

/-- What an operation tries to send is told by what shows of it. -/
theorem commands_muted (v : Vehicle) (op : Operation) (o : Outcome) :
    (attemptsIn v op o.muted).map Attempt.command = (attemptsIn v op o).map Attempt.command := by
  have ha (a : Action) :
      a.muted.attempt?.map Attempt.command = a.attempt?.map Attempt.command := by cases a <;> rfl
  cases o with
  | ticked report =>
    cases op with
    | tick =>
      show ((report.actions.map Action.muted).filterMap Action.attempt?).map Attempt.command =
        (report.actions.filterMap Action.attempt?).map Attempt.command
      simp only [List.filterMap_map, List.map_filterMap, Function.comp_def, ha]
    | _ => rfl
  | sent result => cases op <;> rfl
  | _ => rfl

theorem commands_glimpse (h : r.muted = s.muted) {op : Operation} (ho : op.shows = true) :
    r.glimpse op = s.glimpse op ∧
      (r.attempts op).map Attempt.command = (s.attempts op).map Attempt.command := by
  have hg : r.glimpse op = s.glimpse op := by
    rw [← perform_muted r ho, h, perform_muted s ho]
  refine ⟨hg, ?_⟩
  have hv : r.vehicle = s.vehicle := (congrArg Rig.vehicle h :)
  have hm : (r.perform op).2.muted = (s.perform op).2.muted := congrArg Prod.snd hg
  rw [attempts, attempts, ← commands_muted, ← commands_muted s.vehicle, hv, hm]

/-! ## Runs -/

/-- What shows of a run: what is left after each operation that shows, and what comes of
it. -/
def seen (r : Rig) : List Operation → List (Rig × Outcome)
  | [] => []
  | op :: rest =>
    if op.shows then r.glimpse op :: (r.perform op).1.seen rest else (r.perform op).1.seen rest

/-- What a run tries to send, in order. -/
def attemptsOver (r : Rig) : List Operation → List Attempt
  | [] => []
  | op :: rest => r.attempts op ++ (r.perform op).1.attemptsOver rest

/-- The frames that a run tries to send. -/
def attempted (r : Rig) (ops : List Operation) : List Frame :=
  (r.attemptsOver ops).flatMap Attempt.frames

/-- The frames of a run that the channel takes. -/
def transmitted (r : Rig) (ops : List Operation) : List Frame := takenFrames (r.attemptsOver ops)

/-- What shows of a run, and what it tries to send, is that of the run with the operations
left out that do not show. -/
theorem seen_filter (h : r.muted = s.muted) (ops : List Operation) :
    (run perform r ops).1.muted = (run perform s (ops.filter Operation.shows)).1.muted ∧
      r.seen ops = s.seen (ops.filter Operation.shows) ∧
      (r.attemptsOver ops).map Attempt.command =
        (s.attemptsOver (ops.filter Operation.shows)).map Attempt.command := by
  -- The second run stands still at an operation that does not show.
  induction ops generalizing r s with
  | nil => exact ⟨h, rfl, rfl⟩
  | cons op rest ih =>
    cases ho : op.shows with
    | false =>
      obtain ⟨hm, ha⟩ := muted_of_not_shows r ho
      rw [List.filter_cons_of_neg (by rw [ho]; decide)]
      simp only [seen, attemptsOver, ho, ha, List.nil_append]
      exact ih (hm.trans h)
    | true =>
      obtain ⟨hg, ha⟩ := commands_glimpse h ho
      obtain ⟨hm, hs, hc⟩ := ih (congrArg Prod.fst hg)
      rw [List.filter_cons_of_pos ho]
      simp only [seen, attemptsOver, ho, List.map_append]
      rw [hg, hs, ha, hc]
      exact ⟨hm, rfl, rfl⟩

/-- What is tried to send is told by the commands. -/
theorem flatMap_frames (attempts : List Attempt) :
    attempts.flatMap Attempt.frames =
      (attempts.map Attempt.command).flatMap fun c => (c.toFrame .noAck).toOption.toList := by
  rw [List.flatMap_map]
  rfl

theorem transmitted_sublist (r : Rig) (ops : List Operation) :
    (r.transmitted ops).Sublist (r.attempted ops) :=
  List.filter_sublist.flatMap _

/-- Backpressure shows on the wire alone. Take two runs from the start that differ in
operations on the transmit side only. The rigs that they end in agree on all but the transmit
side; so do those after each of the other operations, and the outcomes of these. The two runs
try to send the same frames, and each transmits some of them in this order. What an operation
leaves on the port is what it leaves of what waited, and behind it the frames that the port
took in it, each of them whole. -/
theorem run_backpressure (settings : Settings) (vehicle : Vehicle) (connected ready : Bool)
    (start : Millis) {a b : List Operation}
    (h : a.filter Operation.shows = b.filter Operation.shows) :
    let first := (new (some .serial) settings vehicle connected ready start).1
    (run perform first a).1.muted = (run perform first b).1.muted ∧
      first.seen a = first.seen b ∧ first.attempted a = first.attempted b ∧
      (∀ ops, (first.transmitted ops).Sublist (first.attempted ops)) ∧
      ∀ before op,
        let r := (run perform first before).1
        (r.perform op).1.port.tx =
          op.left r.port ++ (takenFrames (r.attempts op)).flatMap Frame.toBytes := by
  intro first
  obtain ⟨hma, hsa, hca⟩ := seen_filter (r := first) rfl a
  obtain ⟨hmb, hsb, hcb⟩ := seen_filter (r := first) rfl b
  refine ⟨?_, ?_, ?_, first.transmitted_sublist, fun before op => ?_⟩
  · rw [hma, hmb, h]
  · rw [hsa, hsb, h]
  · simp only [attempted, flatMap_frames, hca, hcb, h]
  · intro r
    obtain ⟨l, p, hr⟩ : ∃ l p, r.Has l p := has_run ⟨_, _, has_new ..⟩ before
    obtain ⟨m, q, hq, htx⟩ := perform_carries hr op
    rw [hq.port_eq, hr.port_eq, htx]

/-- A version request and a place go out. -/
def roomy : List Operation :=
  [.tick, .takeTx Port.capacity, .sendHome, .inject [0xfb, 0, 1], .advance 100, .tick]

/-- The same with no room for the request. -/
def narrow : List Operation :=
  [.setLimit 6, .tick, .setLimit 30, .sendHome, .inject [0xfb, 0, 1], .advance 100, .takeTx 4,
    .tick]

theorem run_backpressure_narrow :
    roomy.filter Operation.shows = narrow.filter Operation.shows ∧
      (quiet.transmitted roomy).map Frame.command = [Code.version, Code.home] ∧
      (quiet.transmitted narrow).map Frame.command = [Code.home] ∧
      quiet.seen roomy = quiet.seen narrow ∧ quiet.attempted roomy = quiet.attempted narrow := by
  have h : roomy.filter Operation.shows = narrow.filter Operation.shows := rfl
  obtain ⟨-, hs, ha, -⟩ := run_backpressure .standard quiet.vehicle false true 0 h
  exact ⟨h, by decide, by decide, hs, ha⟩

end Rig

end GimbalLink
