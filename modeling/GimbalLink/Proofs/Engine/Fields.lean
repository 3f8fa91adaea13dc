import GimbalLink.Proofs.Engine.Actions
/-
  Which fields are written where.

  An engine has ten fields, and each part of a tick writes a few of them. What is done on
  the channel changes the link alone. A job of the cycle writes what is its own to write and
  the link; only the job that reads the gimbal's news writes the telemetry. So a part is
  given here as an update of the engine it starts from, and what it leaves alone can be read
  off the update. It is the same with the operations between ticks.

  No part writes the settings, and the link stays on the kind of channel that it was made
  for. So a rig that was made for some channel and settings has them for good (`Rig.Made`).

  What is proved:
    1. `Engine.runJob_eq`, `Engine.receiveJob_eq`: the parts of a tick once the gimbal is
       found, on either channel; `Engine.searchUpdate_searchStep`: a step of the search.
    2. `Rig.perform_eq`: an operation between ticks; `Rig.perform_keeps`: what none of them
       changes.
    3. `Rig.made_run`: channel and settings over any run.
-/
namespace GimbalLink

/-! ## The kind of channel -/

theorem Channel.kind_mapBus (c : Channel) (f : BusLink → BusLink) : (c.mapBus f).kind = c.kind := by
  cases c <;> rfl

theorem Channel.kind_takeStatus (c : Channel) : c.takeStatus.1.kind = c.kind := by
  cases c <;> rfl

theorem Channel.kind_takeSent (c : Channel) : c.takeSent.1.kind = c.kind := by
  cases c <;> rfl

theorem Channel.kind_write (c : Channel) (bs : Bytes) (priority : Priority) :
    (c.write bs priority).1.kind = c.kind := by
  cases c <;> rfl

namespace Link

/-- Reading changes nothing but the queue that is read from; a bus has none. -/
theorem receive_cases (l : Link) :
    (∃ port rx, l.channel = .serial port ∧ l.receive.1.channel = .serial { port with rx }) ∨
      ∃ link, l.channel = .bus link ∧ l.receive.1.channel = .bus link := by
  have hdrain : l.receive.1.channel = (drain drainLimit l).channel := rfl
  rw [hdrain]
  cases h : l.channel with
  | serial port => exact .inl ⟨port, _, rfl, channel_drain drainLimit h⟩
  | bus link =>
    have hl : drain drainLimit l = l := by simp only [drainLimit, drain, h, Channel.read]
    exact .inr ⟨link, rfl, by rw [hl, h]⟩

theorem kind_receive (l : Link) : l.receive.1.channel.kind = l.channel.kind := by
  obtain ⟨port, rx, h, hr⟩ | ⟨link, h, hr⟩ := l.receive_cases
  · rw [h, hr]
    rfl
  · rw [h, hr]

theorem kind_flush (l : Link) : l.flush.channel.kind = l.channel.kind := by
  rw [flush_eq_blank, kind_blank]

theorem kind_send (l : Link) (c : Command) (priority : Priority) :
    (l.send c priority).1.channel.kind = l.channel.kind := by
  simp only [send, c.toFrame_eq_ok .noAck, sendFrame_eq]
  split
  · rfl
  · exact Channel.kind_write _ _ _

theorem Follows.kind_eq {l m : Link} {actions : List Action} (h : l.Follows actions m) :
    m.channel.kind = l.channel.kind := by
  induction h with
  | nothing => rfl
  | flush _ ih => exact ih.trans (kind_flush _)
  | receive _ ih => exact ih.trans (kind_receive _)
  | takeStatus _ ih => exact ih.trans (Channel.kind_takeStatus _)
  | send _ ih => exact ih.trans (kind_send _ _ _)

end Link

namespace Engine

variable {e : Engine}

/-! ## On the channel -/

theorem receiveFrame_eq (e : Engine) :
    e.receiveFrame.1 = { e with link := e.receiveFrame.1.link } := by
  unfold receiveFrame
  split <;> rfl

theorem receiveStatus_eq (e : Engine) :
    e.receiveStatus.1 = { e with link := e.receiveStatus.1.link } := by
  unfold receiveStatus
  split <;> rfl

/-! ## Once the gimbal is found -/

theorem requestLive_eq (e : Engine) : ∃ link, e.requestLive.1 = { e with link } := by
  unfold requestLive
  split
  · have h := e.flushLink.1.attempt_eq (.getLiveData LiveFields.request) .normal
    exact ⟨_, h⟩
  · exact ⟨e.link, rfl⟩

theorem cameraShot_eq (e : Engine) :
    ∃ link, e.cameraShot.1 = { e with link, cameraPending := false } := by
  unfold cameraShot
  dsimp only
  split
  · exact ⟨_, attempt_eq _ _ _⟩
  · exact ⟨e.link, rfl⟩

/-- A job that does not read news writes none. A picture that was asked for is forgotten in
the request job and in no other. -/
theorem runJob_eq {j : Job} (h : j ≠ .receive) (e : Engine) (v : Vehicle) :
    ∃ link pointer sequence, (e.runJob v j).1 =
      { e with link, pointer, sequence, cameraPending := j ≠ .request && e.cameraPending } := by
  cases j with
  | receive => exact absurd rfl h
  | broadcast =>
    show ∃ link pointer sequence, (e.broadcastJob v).1 = _
    unfold broadcastJob
    split
    · have ha := attempt_eq { e with sequence := e.sequence + 1 }
        (.linkStatus (linkStatus e.sequence v)) .highest
      exact ⟨_, _, _, ha⟩
    · exact ⟨e.link, e.pointer, e.sequence, rfl⟩
  | request =>
    obtain ⟨link, hl⟩ := e.requestLive_eq
    obtain ⟨link', hc⟩ := e.requestLive.1.cameraShot_eq
    refine ⟨link', e.pointer, e.sequence, ?_⟩
    show e.requestLive.1.cameraShot.1 = _
    rw [hc, hl]
    rfl
  | point =>
    show ∃ link pointer sequence, (e.pointJob v).1 = _
    unfold pointJob
    dsimp only
    split
    · have ha := attempt_eq { e with pointer := (e.pointer.cycle e.settings v).1 }
      exact ⟨_, _, e.sequence, ha _ .normal⟩
    · exact ⟨e.link, _, e.sequence, rfl⟩
  | inputs =>
    show ∃ link pointer sequence, (e.inputsJob v).1 = _
    unfold inputsJob
    split
    · exact ⟨_, e.pointer, e.sequence, e.attempt_eq _ .normal⟩
    · exact ⟨e.link, e.pointer, e.sequence, rfl⟩

/-- Reading news writes the link and the telemetry. -/
theorem receiveJob_eq (e : Engine) :
    ∃ link telemetry, e.receiveJob.1 = { e with link, telemetry } := by
  unfold receiveJob
  split
  · exact ⟨e.link, e.telemetry, rfl⟩
  · have h := e.receiveStatus_eq
    dsimp only
    split
    · exact ⟨_, _, h⟩
    · next s _ => exact ⟨_, _, congrArg (·.applyStatus s) h⟩
  · have h := e.receiveFrame_eq
    dsimp only
    split
    · next data _ =>
      rw [h]
      exact ⟨_, _, rfl⟩
    · exact ⟨_, _, h⟩

/-! ## Searching -/

theorem meet_eq (e : Engine) (found : Option VersionInfo) :
    ∃ search rotation version bannerPending,
      e.meet found = { e with search, rotation, version, bannerPending } := by
  by_cases h : e.state = .searching
  · exact ⟨_, _, _, _, meet_of_searching h found⟩
  · exact ⟨_, _, _, _, meet_of_ne_searching h found⟩

/-- An update of the fields that a step of the search may write. -/
def SearchUpdate (e d : Engine) : Prop :=
  ∃ link search rotation telemetry version bannerPending,
    d = { e with link, search, rotation, telemetry, version, bannerPending }

theorem SearchUpdate.trans {d c : Engine} (h : e.SearchUpdate d) (h' : d.SearchUpdate c) :
    e.SearchUpdate c := by
  obtain ⟨_, _, _, _, _, _, rfl⟩ := h
  obtain ⟨_, _, _, _, _, _, rfl⟩ := h'
  exact ⟨_, _, _, _, _, _, rfl⟩

theorem searchUpdate_link {d : Engine} (h : d = { e with link := d.link }) : e.SearchUpdate d :=
  ⟨_, _, _, _, _, _, h⟩

theorem searchUpdate_meet (e : Engine) (found : Option VersionInfo) :
    e.SearchUpdate (e.meet found) := by
  obtain ⟨_, _, _, _, h⟩ := e.meet_eq found
  exact ⟨_, _, _, _, _, _, h⟩

theorem searchUpdate_awaitBroadcast (e : Engine) : e.SearchUpdate e.awaitBroadcast.1 := by
  have h := searchUpdate_link e.receiveStatus_eq
  unfold awaitBroadcast
  dsimp only
  split
  · exact h
  · next s _ =>
    have hs : e.receiveStatus.1.SearchUpdate (e.receiveStatus.1.applyStatus s) :=
      ⟨_, _, _, _, _, _, rfl⟩
    exact (h.trans hs).trans (searchUpdate_meet _ none)

theorem searchUpdate_awaitVersion (e : Engine) : e.SearchUpdate e.awaitVersion.1 := by
  have h := searchUpdate_link e.receiveFrame_eq
  unfold awaitVersion
  dsimp only
  split
  · exact h.trans (searchUpdate_meet _ _)
  · exact h

/-- A step of the search, on either channel, writes neither settings nor pointer, and
nothing that is to be sent. -/
theorem searchUpdate_searchStep (e : Engine) (now : Millis) :
    e.SearchUpdate (e.searchStep now).1 := by
  have hsearch (search : Search) : e.SearchUpdate { e with search } := ⟨_, _, _, _, _, _, rfl⟩
  unfold searchStep
  split
  · exact hsearch e.search
  · split
    · rw [searchBus_eq]
      split
      · exact hsearch _
      · exact (hsearch _).trans (searchUpdate_awaitBroadcast _)
    · cases hs : (e.search.poll now).2 with
      | idle =>
        rw [searchSerial_quiet (.inl hs)]
        exact hsearch _
      | timedOut =>
        rw [searchSerial_quiet (.inr hs)]
        exact hsearch _
      | request =>
        rw [searchSerial_request hs]
        exact (hsearch _).trans (searchUpdate_link (attempt_eq _ .getVersion .normal))
      | await =>
        rw [searchSerial_await hs]
        exact (hsearch _).trans (searchUpdate_awaitVersion _)

/-! ## What most parts leave alone -/

/-- What no operation changes but a tick. -/
structure Keeps (e d : Engine) : Prop where
  settings_eq : d.settings = e.settings
  search_eq : d.search = e.search
  rotation_eq : d.rotation = e.rotation
  version_eq : d.version = e.version
  orientation_eq : d.telemetry.orientation = e.telemetry.orientation
  armed_eq : d.telemetry.armed = e.telemetry.armed

theorem Keeps.refl (e : Engine) : e.Keeps e := ⟨rfl, rfl, rfl, rfl, rfl, rfl⟩

theorem Keeps.state_eq {d : Engine} (h : e.Keeps d) : d.state = e.state :=
  congrArg Search.state h.search_eq

theorem Keeps.trans {d c : Engine} (h : e.Keeps d) (h' : d.Keeps c) : e.Keeps c :=
  ⟨h'.settings_eq.trans h.settings_eq, h'.search_eq.trans h.search_eq,
    h'.rotation_eq.trans h.rotation_eq, h'.version_eq.trans h.version_eq,
    h'.orientation_eq.trans h.orientation_eq, h'.armed_eq.trans h.armed_eq⟩

/-- Whatever is done on the channel alone. -/
theorem Keeps.of_link {d : Engine} (h : d = { e with link := d.link }) : e.Keeps d := by
  rw [h]
  exact ⟨rfl, rfl, rfl, rfl, rfl, rfl⟩

theorem sendNotices_keepsAll (e : Engine) (connected : Bool) :
    e.Keeps (e.sendNotices connected).1 := by
  rw [sendNotices_eq]
  exact ⟨rfl, rfl, rfl, rfl, rfl, rfl⟩

theorem runJob_keeps {j : Job} (h : j ≠ .receive) (v : Vehicle) : e.Keeps (e.runJob v j).1 := by
  obtain ⟨_, _, _, he⟩ := runJob_eq h e v
  rw [he]
  exact ⟨rfl, rfl, rfl, rfl, rfl, rfl⟩

/-! ## Settings and channel over a tick -/

theorem runJob_settings (e : Engine) (v : Vehicle) (j : Job) :
    (e.runJob v j).1.settings = e.settings := by
  by_cases h : j = .receive
  · subst h
    obtain ⟨_, _, hr⟩ := e.receiveJob_eq
    show e.receiveJob.1.settings = e.settings
    rw [hr]
  · obtain ⟨_, _, _, hr⟩ := runJob_eq h e v
    rw [hr]

theorem tick_settings (e : Engine) (now : Millis) (v : Vehicle) (connected : Bool) :
    (e.tick now v connected).1.settings = e.settings := by
  unfold tick
  split
  · rfl
  · obtain ⟨_, _, _, _, _, _, h⟩ := e.searchUpdate_searchStep now
    show (e.searchStep now).1.settings = e.settings
    rw [h]
  · have hn : (e.sendNotices connected).1.settings = e.settings := by rw [sendNotices_eq]
    refine Eq.trans ?_ hn
    unfold jobStep
    dsimp only
    split
    · rfl
    · exact runJob_settings _ v _

theorem tick_wiring {kind : ChannelKind} (h : e.wiring = some kind) (now : Millis) (v : Vehicle)
    (connected : Bool) : (e.tick now v connected).1.wiring = some kind := by
  obtain ⟨l, hl, hk⟩ := Option.map_eq_some_iff.1 h
  obtain ⟨m, hm, hf⟩ := e.tick_reports now v connected l hl
  rw [wiring, hm, Option.map_some, hf.kind_eq, hk]

theorem wiring_mapChannel (e : Engine) {f : Channel → Channel} (hf : ∀ c, (f c).kind = c.kind) :
    (e.mapChannel f).wiring = e.wiring := by
  rw [wiring, wiring, mapChannel, Option.map_map]
  apply Option.map_congr
  intro l _
  exact hf l.channel

theorem wiring_send (e : Engine) (c : Command) (priority : Priority) :
    (e.send c priority).1.wiring = e.wiring := by
  obtain h | ⟨l, hl, h⟩ := e.link_send c priority
  · rw [wiring, wiring, h]
  · rw [wiring, wiring, h, hl, Option.map_some, Option.map_some, Link.kind_send]

end Engine

namespace Rig

/-! ## Between ticks -/

/-- A picture is asked for. -/
def Operation.isTrigger : Operation → Bool
  | .triggerCamera => true
  | _ => false

/-- The banner is asked for. -/
def Operation.asksBanner : Operation → Bool
  | .requestBanner => true
  | _ => false

/-- What an operation between ticks makes of the telemetry. -/
def Operation.onTelemetry : Operation → Telemetry → Telemetry
  | .takeUpdate, t => t.takeUpdate.1
  | _, t => t

/-- An operation between ticks, as an update of the engine. -/
def BetweenUpdate (e : Engine) (op : Operation) (d : Engine) : Prop :=
  ∃ link pointer, link.map (·.channel.kind) = e.wiring ∧
    d = { e with link, pointer, telemetry := op.onTelemetry e.telemetry,
                 cameraPending := op.isTrigger || e.cameraPending,
                 bannerPending := op.asksBanner || e.bannerPending }

theorem setPort_eq (r : Rig) (port : Port) :
    ∃ link, link.map (·.channel.kind) = r.engine.wiring ∧
      (r.setPort port).engine = { r.engine with link } := by
  unfold setPort
  split
  · next hl =>
    refine ⟨_, ?_, rfl⟩
    simp only [Engine.wiring, hl]
    rfl
  · exact ⟨r.engine.link, rfl, rfl⟩

variable {r : Rig}

/-- What is done between ticks never writes the search, the rotation, the settings or what is
known of the gimbal but for the mark that it is new. -/
theorem perform_eq {op : Operation} (h : op ≠ .tick) :
    BetweenUpdate r.engine op (r.perform op).1.engine := by
  have hquiet (f : Channel → Channel) (hf : ∀ c, (f c).kind = c.kind) :
      ∃ link pointer, link.map (·.channel.kind) = r.engine.wiring ∧
        r.engine.mapChannel f = { r.engine with link, pointer } :=
    ⟨_, r.engine.pointer, r.engine.wiring_mapChannel hf, rfl⟩
  have hsend (c : Command) (priority : Priority) :
      ∃ link pointer, link.map (·.channel.kind) = r.engine.wiring ∧
        (r.engine.send c priority).1 = { r.engine with link, pointer } :=
    ⟨_, r.engine.pointer, r.engine.wiring_send c priority, r.engine.send_eq c priority⟩
  have hport (port : Port) :
      ∃ link pointer, link.map (·.channel.kind) = r.engine.wiring ∧
        (r.setPort port).engine = { r.engine with link, pointer } := by
    obtain ⟨link, hk, hl⟩ := r.setPort_eq port
    exact ⟨link, r.engine.pointer, hk, hl⟩
  cases op with
  | tick => exact absurd rfl h
  | inject bs => exact hport _
  | setLimit limit => exact hport _
  | takeTx room => exact hport _
  | setReady ready => exact hquiet _ fun c => c.kind_mapBus _
  | setAccepting accepting => exact hquiet _ fun c => c.kind_mapBus _
  | takeSent => exact hquiet _ fun c => c.kind_takeSent
  | publish node s =>
    obtain ⟨after, result, hp⟩ := publish_delivers r.registry node s
    simp only [perform, publish, hp]
    cases heardBy result with
    | false => exact ⟨_, r.engine.pointer, rfl, rfl⟩
    | true => exact hquiet _ fun c => c.kind_mapBus _
  | sendHome => exact hsend (.setHome _) .normal
  | sendTarget l => exact hsend (.setTarget _) .normal
  | setMode mode =>
    simp only [perform, onEngine, Engine.setMode]
    split <;> exact ⟨_, _, rfl, rfl⟩
  | _ => exact ⟨_, _, rfl, rfl⟩

theorem perform_keeps {op : Operation} (h : op ≠ .tick) :
    r.engine.Keeps (r.perform op).1.engine := by
  obtain ⟨link, pointer, -, he⟩ := perform_eq (r := r) h
  rw [he]
  -- Taking the orientation lowers its mark and leaves the orientation.
  cases op <;> exact ⟨rfl, rfl, rfl, rfl, rfl, rfl⟩

/-! ## Channel and settings for good -/

/-- The rig was made for this kind of channel, or for none, and with these settings. -/
structure Made (r : Rig) (kind : Option ChannelKind) (settings : Settings) : Prop where
  wiring_eq : r.engine.wiring = kind
  settings_eq : r.engine.settings = settings
  disabled_of_none : kind = none → r.engine.state = .disabled

theorem made_new (kind : Option ChannelKind) (settings : Settings) (vehicle : Vehicle)
    (connected ready : Bool) (start : Millis) :
    (new kind settings vehicle connected ready start).1.Made kind settings := by
  refine ⟨?_, rfl, ?_⟩
  · obtain _ | _ | _ := kind <;> rfl
  · rintro rfl
    rfl

theorem Made.perform {kind : Option ChannelKind} {settings : Settings} (h : r.Made kind settings)
    (op : Operation) : (r.perform op).1.Made kind settings := by
  by_cases ho : op = .tick
  · subst ho
    refine ⟨?_, (Engine.tick_settings _ _ _ _).trans h.settings_eq, fun hk => ?_⟩
    · cases kind with
      | none =>
        have ht := Engine.tick_of_disabled (h.disabled_of_none rfl) r.clock.now r.vehicle
          r.connected
        show (r.engine.tick r.clock.now r.vehicle r.connected).1.wiring = none
        rw [ht]
        exact h.wiring_eq
      | some k => exact Engine.tick_wiring h.wiring_eq _ _ _
    · have ht := Engine.tick_of_disabled (h.disabled_of_none hk) r.clock.now r.vehicle r.connected
      show (r.engine.tick r.clock.now r.vehicle r.connected).1.state = .disabled
      rw [ht]
      exact h.disabled_of_none hk
  · obtain ⟨link, pointer, hk, he⟩ := perform_eq (r := r) ho
    refine ⟨?_, ?_, ?_⟩
    · rw [he]
      exact hk.trans h.wiring_eq
    · rw [he]
      exact h.settings_eq
    · rw [he]
      exact h.disabled_of_none

theorem made_run (kind : Option ChannelKind) (settings : Settings) (vehicle : Vehicle)
    (connected ready : Bool) (start : Millis) (ops : List Operation) :
    (run perform (new kind settings vehicle connected ready start).1 ops).1.Made kind settings :=
  run_invariant (P := fun r : Rig => r.Made kind settings) (fun _ op h => h.perform op)
    (made_new kind settings vehicle connected ready start) ops

end Rig

end GimbalLink
