import GimbalLink.Proofs.Engine.Repertoire
/-
  Broadcasts on the bus.

  On the bus all that an engine hears of the gimbal are its broadcasts, and of these it keeps
  the latest in an inbox until it looks there. It looks while it searches, if the search is
  not over and the bus is up, and in the job that reads news, once the gimbal is found. So a
  broadcast that comes before the bus is up waits for it, one that comes after the search is
  over is never looked at, and one is lost only to a later one.

  All of it is told by an account of the run: what was written to the inbox since the last
  broadcast was consumed, what was consumed, and whether somebody took the orientation since.

  What is proved:
    1. `Link.Follows.waiting`: of what is done on a link, only looking empties the inbox.
    2. `Engine.tick_consumes`: what a tick makes of the broadcast that it consumes.
    3. `Rig.accounts_run`: the account is right.
    4. `Rig.run_broadcasts`: what that says, for runs from the start.
-/
namespace GimbalLink

/-- The broadcast that waits in the inbox. -/
def Channel.waiting (c : Channel) : Option BusStatus := c.takeStatus.2

namespace Channel

theorem waiting_takeStatus (c : Channel) : c.takeStatus.1.waiting = none := by
  cases c <;> rfl

theorem waiting_write (c : Channel) (bs : Bytes) (priority : Priority) :
    (c.write bs priority).1.waiting = c.waiting := by
  cases c with
  | serial port => rfl
  | bus link =>
    obtain ⟨node, ready, accepting, sent, inbox⟩ := link
    cases accepting <;> rfl

theorem waiting_blank (c : Channel) : c.blank.waiting = c.waiting := by
  cases c <;> rfl

theorem waiting_deliver {c : Channel} (h : c.kind = .bus) (s : BusStatus) :
    (c.deliver s).waiting = some s := by
  cases c with
  | serial port => cases h
  | bus link => rfl

end Channel

/-- Something was looked for in the inbox. -/
def Action.isLook : Action → Bool
  | .takeStatus => true
  | _ => false

namespace Link

theorem waiting_receive (l : Link) : l.receive.1.channel.waiting = l.channel.waiting := by
  obtain ⟨port, rx, h, hr⟩ | ⟨link, h, hr⟩ := l.receive_cases
  · rw [h, hr]
    rfl
  · rw [h, hr]

theorem waiting_send (l : Link) (c : Command) (priority : Priority) :
    (l.send c priority).1.channel.waiting = l.channel.waiting := by
  simp only [send, c.toFrame_eq_ok .noAck, sendFrame_eq]
  split
  · rfl
  · exact Channel.waiting_write _ _ _

/-- Of what is done on a link, only looking empties the inbox. -/
theorem Follows.waiting {l m : Link} {actions : List Action} (h : l.Follows actions m) :
    m.channel.waiting = if actions.any Action.isLook then none else l.channel.waiting := by
  induction h with
  | nothing => rfl
  | @flush l m rest _ ih =>
    rw [ih, flush_eq_blank, blank, Channel.waiting_blank]
    rfl
  | @receive l m rest _ ih =>
    rw [ih, waiting_receive]
    rfl
  | @takeStatus l m rest _ ih =>
    rw [ih, Channel.waiting_takeStatus, ite_self]
    rfl
  | @send l m rest c priority _ ih =>
    rw [ih, waiting_send]
    rfl

end Link

namespace Engine

def waiting (e : Engine) : Option BusStatus := e.link.bind (·.channel.waiting)

/-- Whether the channel can be used. -/
def isReady (e : Engine) : Bool := e.link.any (·.channel.isReady)

/-- A tick at `now` looks into the inbox. -/
def looks (e : Engine) (now : Millis) : Bool :=
  match e.state with
  | .searching => !e.search.isOver (e.search.started.getD now) now && e.isReady
  | .found => (e.rotation.poll now).2 = some .receive
  | .disabled => false

/-- The broadcast that a tick at `now` consumes. -/
def consumed (e : Engine) (now : Millis) : Option BusStatus :=
  if e.looks now then e.waiting else none

/-- What is made of a broadcast that is consumed. -/
structure Consumes (e : Engine) (status : Option BusStatus) (d : Engine) : Prop where
  orientation_eq : d.telemetry.orientation =
    (status.map BusStatus.orientation).getD e.telemetry.orientation
  fresh_eq : d.telemetry.fresh = (status.isSome || e.telemetry.fresh)
  armed_eq : d.telemetry.armed = e.telemetry.armed
  found_iff : d.state = .found ↔ e.state = .found ∨ status.isSome = true
  of_searching : d.state = .searching → e.state = .searching

variable {e d c : Engine} {status : Option BusStatus}

/-- Nothing is consumed, and the state stays. -/
theorem Consumes.none_of_eq (ht : d.telemetry = e.telemetry) (hs : d.state = e.state) :
    e.Consumes none d := by
  refine ⟨?_, ?_, ?_, ?_, fun h => hs ▸ h⟩
  · rw [ht]
    rfl
  · rw [ht]
    rfl
  · rw [ht]
  · rw [hs]
    simp

/-- Nothing is consumed, and the search ends. -/
theorem Consumes.none_of_disabled (ht : d.telemetry = e.telemetry) (hs : e.state = .searching)
    (hd : d.state = .disabled) : e.Consumes none d := by
  refine ⟨?_, ?_, ?_, ?_, fun h => hs⟩
  · rw [ht]
    rfl
  · rw [ht]
    rfl
  · rw [ht]
  · rw [hs, hd]
    simp

/-- What is known of the gimbal may be announced before. -/
theorem Consumes.congr (h : c.Consumes status d) (hs : c.state = e.state)
    (ho : c.telemetry.orientation = e.telemetry.orientation)
    (hf : c.telemetry.fresh = e.telemetry.fresh) (ha : c.telemetry.armed = e.telemetry.armed) :
    e.Consumes status d := by
  obtain ⟨ho', hf', ha', hfound, hsearch⟩ := h
  exact ⟨ho ▸ ho', hf ▸ hf', ha ▸ ha', hs ▸ hfound, hs ▸ hsearch⟩

theorem receiveStatus_of_bus {link : BusLink} {receiver : Receiver}
    (h : e.link = some ⟨.bus link, receiver⟩) :
    e.receiveStatus =
      ({ e with link := some ⟨.bus { link with inbox := none }, receiver⟩ }, [.takeStatus],
        link.inbox) := by
  simp only [receiveStatus, h, Channel.takeStatus]

/-! ## Searching -/

theorem awaitBroadcast_consumes {link : BusLink} {receiver : Receiver}
    (h : e.link = some ⟨.bus link, receiver⟩) (hs : e.state = .searching) :
    e.Consumes link.inbox e.awaitBroadcast.1 := by
  simp only [awaitBroadcast, receiveStatus_of_bus h]
  cases link.inbox with
  | none => exact .none_of_eq rfl rfl
  | some s =>
    have hd : (applyStatus { e with
        link := some ⟨.bus { link with inbox := none }, receiver⟩ } s).state = .searching := hs
    simp only [meet_of_searching hd]
    exact ⟨rfl, rfl, rfl, by simp [state], fun _ => hs⟩

theorem searchStep_consumes {link : BusLink} {receiver : Receiver}
    (h : e.link = some ⟨.bus link, receiver⟩) (hs : e.state = .searching) (now : Millis) :
    e.Consumes (e.consumed now) (e.searchStep now).1 ∧
      (e.searchStep now).2.any Action.isLook = e.looks now := by
  have hbus : e.searchStep now = e.searchBus link.ready now := by
    simp only [searchStep, h]
    rfl
  have hlooks : e.looks now = (!e.search.isOver (e.search.started.getD now) now && link.ready) := by
    simp only [looks, hs, isReady, h]
    rfl
  have hcheck := Search.checkLimit_of_searching hs now
  rw [hbus, searchBus_eq, consumed, hlooks, hcheck]
  -- The limit comes before the state of the bus: past it, nothing is looked at.
  cases e.search.isOver (e.search.started.getD now) now with
  | true =>
    exact ⟨.none_of_disabled rfl hs rfl, rfl⟩
  | false =>
    cases link.ready with
    | false => exact ⟨.none_of_eq rfl rfl, rfl⟩
    | true =>
      have hw : e.wiring = some .bus := by
        rw [wiring, h]
        rfl
      have hwaiting : e.waiting = link.inbox := by
        rw [waiting, h]
        rfl
      have ha := awaitBroadcast_consumes (e := { e with search := e.search.begun now }) h hs
      have hactions := awaitBroadcast_actions (e := { e with search := e.search.begun now }) hw
      show e.Consumes e.waiting (awaitBroadcast { e with search := e.search.begun now }).1 ∧
        (awaitBroadcast { e with search := e.search.begun now }).2.any Action.isLook = true
      rw [hactions, hwaiting]
      exact ⟨ha.congr rfl rfl rfl rfl, rfl⟩

/-! ## Once the gimbal is found -/

/-- Only the job that reads news looks into the inbox. -/
theorem isLook_runJob {j : Job} (h : j ≠ .receive) (e : Engine) (v : Vehicle) :
    (e.runJob v j).2.any Action.isLook = false := by
  cases j with
  | receive => exact absurd rfl h
  | broadcast =>
    simp only [runJob, broadcastJob]
    split <;> rfl
  | request =>
    have hasks {e : Engine} {asks : List Action} (h : e.AsksLive asks) :
        asks.any Action.isLook = false := by cases h <;> rfl
    have hshots {e : Engine} {shots : List Action} (h : e.Shoots shots) :
        shots.any Action.isLook = false := by cases h <;> rfl
    show (e.requestLive.2 ++ e.requestLive.1.cameraShot.2).any _ = false
    rw [List.any_append, hasks e.requestLive_asks, hshots e.requestLive.1.cameraShot_shoots]
    rfl
  | point =>
    simp only [runJob, pointJob]
    split <;> rfl
  | inputs =>
    simp only [runJob, inputsJob]
    split <;> rfl

theorem receiveJob_consumes {link : BusLink} {receiver : Receiver}
    (h : e.link = some ⟨.bus link, receiver⟩) (hs : e.state = .found) :
    e.Consumes link.inbox e.receiveJob.1 ∧ e.receiveJob.2 = [.takeStatus] := by
  have hw : e.wiring = some .bus := by
    rw [wiring, h]
    rfl
  simp only [receiveJob, hw, receiveStatus_of_bus h]
  cases link.inbox with
  | none => exact ⟨.none_of_eq rfl rfl, rfl⟩
  | some s => exact ⟨⟨rfl, rfl, rfl, ⟨fun _ => .inl hs, fun _ => hs⟩, fun hd => hd⟩, rfl⟩

theorem jobStep_consumes {link : BusLink} {receiver : Receiver}
    (h : e.link = some ⟨.bus link, receiver⟩) (hs : e.state = .found) (now : Millis)
    (v : Vehicle) :
    e.Consumes (e.consumed now) (e.jobStep now v).1 ∧
      (e.jobStep now v).2.any Action.isLook = e.looks now := by
  have hlooks : e.looks now = decide ((e.rotation.poll now).2 = some .receive) := by
    simp only [looks, hs]
  have hwaiting : e.waiting = link.inbox := by
    rw [waiting, h]
    rfl
  rw [consumed, hlooks, hwaiting]
  unfold jobStep
  obtain ⟨rotation, _ | j⟩ := e.rotation.poll now
  · exact ⟨.none_of_eq rfl rfl, rfl⟩
  · by_cases hj : j = .receive
    · subst hj
      obtain ⟨hc, ha⟩ := receiveJob_consumes (e := { e with rotation }) h hs
      refine ⟨hc.congr rfl rfl rfl rfl, ?_⟩
      show (receiveJob { e with rotation }).2.any Action.isLook = true
      rw [ha]
      rfl
    · have hn : decide (some j = some Job.receive) = false := decide_eq_false (by simpa using hj)
      obtain ⟨_, _, _, he⟩ := runJob_eq hj { e with rotation } v
      rw [hn]
      refine ⟨?_, isLook_runJob hj _ v⟩
      show e.Consumes none (runJob { e with rotation } v j).1
      rw [he]
      exact .none_of_eq rfl rfl

/-! ## A tick -/

theorem link_of_wiring (h : e.wiring = some .bus) :
    ∃ link receiver, e.link = some ⟨.bus link, receiver⟩ := by
  obtain ⟨⟨channel, receiver⟩, hl, hk⟩ := Option.map_eq_some_iff.1 h
  cases channel with
  | serial port => cases hk
  | bus link => exact ⟨link, receiver, hl⟩

theorem tick_consumes (h : e.wiring = some .bus) (now : Millis) (v : Vehicle) (connected : Bool) :
    e.Consumes (e.consumed now) (e.tick now v connected).1 ∧
      (e.tick now v connected).2.actions.any Action.isLook = e.looks now := by
  obtain ⟨link, receiver, hl⟩ := link_of_wiring h
  cases hs : e.state with
  | disabled =>
    have hlooks : e.looks now = false := by simp only [looks, hs]
    rw [tick_of_disabled hs, consumed, hlooks]
    exact ⟨.none_of_eq rfl rfl, rfl⟩
  | searching =>
    simp only [tick, hs]
    exact searchStep_consumes hl hs now
  | found =>
    -- The notices look at neither the inbox nor the rotation.
    have hn := e.sendNotices_eq connected
    simp only [tick, hs]
    generalize (e.sendNotices connected).1 = d at hn ⊢
    have hsd : d.state = .found := by
      rw [hn]
      exact hs
    have hld : d.link = some ⟨.bus link, receiver⟩ := by
      rw [hn]
      exact hl
    have hlooks : d.looks now = e.looks now := by
      rw [looks, looks, hs, hsd, hn]
    have hconsumed : d.consumed now = e.consumed now := by
      rw [consumed, consumed, hlooks, waiting, waiting, hld, hl]
    obtain ⟨hc, hl⟩ := jobStep_consumes hld hsd now v
    rw [hconsumed] at hc
    have htelemetry : d.telemetry.orientation = e.telemetry.orientation ∧
        d.telemetry.fresh = e.telemetry.fresh ∧ d.telemetry.armed = e.telemetry.armed := by
      rw [hn]
      exact ⟨rfl, rfl, rfl⟩
    obtain ⟨ho, hf, ha⟩ := htelemetry
    exact ⟨hc.congr (hsd.trans hs.symm) ho hf ha, hl.trans hlooks⟩

theorem waiting_tick (h : e.wiring = some .bus) (now : Millis) (v : Vehicle) (connected : Bool) :
    (e.tick now v connected).1.waiting = if e.looks now then none else e.waiting := by
  obtain ⟨link, receiver, hl⟩ := link_of_wiring h
  obtain ⟨m, hm, hf⟩ := e.tick_reports now v connected _ hl
  have hw := hf.waiting
  rw [(tick_consumes h now v connected).2] at hw
  rw [waiting, waiting, hm, hl]
  exact hw

/-! ## Between ticks -/

theorem waiting_mapChannel (e : Engine) {f : Channel → Channel}
    (hf : ∀ c, (f c).waiting = c.waiting) : (e.mapChannel f).waiting = e.waiting := by
  obtain ⟨link⟩ := e
  cases link with
  | none => rfl
  | some l => exact hf l.channel

theorem waiting_deliver (h : e.wiring = some .bus) (s : BusStatus) :
    (e.mapChannel (·.deliver s)).waiting = some s := by
  obtain ⟨link, receiver, hl⟩ := link_of_wiring h
  rw [waiting, mapChannel, hl]
  rfl

theorem waiting_send (e : Engine) (c : Command) (priority : Priority) :
    (e.send c priority).1.waiting = e.waiting := by
  obtain h | ⟨l, hl, h⟩ := e.link_send c priority
  · rw [waiting, waiting, h]
  · rw [waiting, waiting, h, hl]
    exact Link.waiting_send l c priority

end Engine

namespace Rig

/-- An operation, or a broadcast that is written to the inbox past the registry. -/
inductive Happening where
  | operation (op : Operation)
  | write (s : BusStatus)

def happen (r : Rig) : Happening → Rig × Outcome
  | .operation op => r.perform op
  | .write s => r.onChannel (·.deliver s)

/-- What comes into the inbox. -/
def written : Happening → Outcome → Option BusStatus
  | .write s, _ => some s
  | .operation (.publish _ s), .published result => if heardBy result then some s else none
  | _, _ => none

/-- What happens is a tick that looks into the inbox. -/
def looks (r : Rig) : Happening → Bool
  | .operation .tick => r.engine.looks r.clock.now
  | _ => false

variable {r : Rig}

theorem waiting_setPort (r : Rig) (port : Port) :
    (r.setPort port).engine.waiting = r.engine.waiting := by
  unfold setPort
  split
  · next hl =>
    rw [Engine.waiting, Engine.waiting, Engine.mapChannel, hl]
    rfl
  · rfl

/-- What is written waits, and but for looking nothing else changes what waits. -/
theorem waiting_happen (hw : r.engine.wiring = some .bus) (h : Happening) :
    (r.happen h).1.engine.waiting =
      if r.looks h then none else (written h (r.happen h).2).or r.engine.waiting := by
  cases h with
  | write s => exact r.engine.waiting_deliver hw s
  | operation op =>
    cases op with
    | tick => exact Engine.waiting_tick hw r.clock.now r.vehicle r.connected
    | publish node s =>
      obtain ⟨after, result, hp⟩ := publish_delivers r.registry node s
      simp only [happen, perform, publish, hp, looks, written]
      cases heardBy result with
      | false => rfl
      | true => exact r.engine.waiting_deliver hw s
    | inject bs => exact r.waiting_setPort _
    | setLimit limit => exact r.waiting_setPort _
    | takeTx room => exact r.waiting_setPort _
    | setReady ready => exact r.engine.waiting_mapChannel fun c => by cases c <;> rfl
    | setAccepting accepting => exact r.engine.waiting_mapChannel fun c => by cases c <;> rfl
    | takeSent => exact r.engine.waiting_mapChannel fun c => by cases c <;> rfl
    | setMode mode =>
      simp only [happen, perform, onEngine, Engine.setMode]
      split <;> rfl
    | sendHome =>
      show (r.engine.sendHome r.vehicle.location).1.waiting = r.engine.waiting
      exact r.engine.waiting_send _ .normal
    | sendTarget l =>
      show (r.engine.sendTarget l).1.waiting = r.engine.waiting
      exact r.engine.waiting_send _ .normal
    | _ => rfl

/-! ## The account -/

/-- What came in over a run, and what became of it. -/
structure Account where
  /-- Written to the inbox since a broadcast was last consumed, in order. -/
  unread : List BusStatus
  /-- Consumed, in order. -/
  consumed : List BusStatus
  /-- A broadcast was consumed since the orientation was last taken. -/
  fresh : Bool

/-- Somebody takes the orientation. -/
def Happening.takes : Happening → Bool
  | .operation .takeUpdate => true
  | _ => false

/-- The account once something more happened. -/
def Account.enter (a : Account) (looked : Bool) (written : Option BusStatus) (taken : Bool) :
    Account :=
  if looked then
    ⟨[], a.consumed ++ a.unread.getLast?.toList, a.unread.getLast?.isSome || a.fresh⟩
  else ⟨a.unread ++ written.toList, a.consumed, !taken && a.fresh⟩

theorem Account.consumed_enter (a : Account) (looked : Bool) (written : Option BusStatus)
    (taken : Bool) : (a.enter looked written taken).consumed =
      a.consumed ++ (if looked then a.unread.getLast? else none).toList := by
  cases looked <;> simp [enter]

/-- The account of a run, from the one before it. -/
def account (r : Rig) (a : Account) : List Happening → Account
  | [] => a
  | h :: rest =>
    (r.happen h).1.account (a.enter (r.looks h) (written h (r.happen h).2) h.takes) rest

theorem account_append (r : Rig) (a : Account) (hs ks : List Happening) :
    r.account a (hs ++ ks) = (run happen r hs).1.account (r.account a hs) ks := by
  induction hs generalizing r a with
  | nil => rfl
  | cons h rest ih => exact ih _ _

/-- The account is right. -/
structure Accounts (r : Rig) (a : Account) : Prop where
  wiring_eq : r.engine.wiring = some .bus
  waiting_eq : r.engine.waiting = a.unread.getLast?
  orientation_eq : r.engine.telemetry.orientation =
    (a.consumed.getLast?.map BusStatus.orientation).getD .zero
  fresh_eq : r.engine.telemetry.fresh = a.fresh
  armed_eq : r.engine.telemetry.armed = false
  found_iff : r.engine.state = .found ↔ a.consumed ≠ []

variable {a : Account}

theorem wiring_happen {kind : ChannelKind} (hw : r.engine.wiring = some kind) (h : Happening) :
    (r.happen h).1.engine.wiring = some kind := by
  cases h with
  | write s => exact (r.engine.wiring_mapChannel fun c => c.kind_mapBus _).trans hw
  | operation op =>
    by_cases ho : op = .tick
    · subst ho
      exact Engine.tick_wiring hw _ _ _
    · obtain ⟨link, pointer, hk, he⟩ := perform_eq (r := r) ho
      show (r.perform op).1.engine.wiring = some kind
      rw [he]
      exact hk.trans hw

theorem ne_disabled_of_looks {h : Happening} (hl : r.looks h = true) :
    r.engine.state ≠ .disabled := by
  intro hs
  have hnot : r.engine.looks r.clock.now = false := by simp only [Engine.looks, hs]
  cases h with
  | write s => cases hl
  | operation op =>
    cases op with
    | tick => exact nomatch hnot.symm.trans hl
    | _ => cases hl

/-- What happens between ticks consumes nothing. -/
theorem between_happen {h : Happening} (ht : h ≠ .operation .tick) :
    (r.happen h).1.engine.telemetry =
        { r.engine.telemetry with fresh := !h.takes && r.engine.telemetry.fresh } ∧
      (r.happen h).1.engine.state = r.engine.state ∧ r.looks h = false := by
  cases h with
  | write s => exact ⟨rfl, rfl, rfl⟩
  | operation op =>
    have ho : op ≠ .tick := fun h => ht (h ▸ rfl)
    obtain ⟨link, pointer, -, he⟩ := perform_eq (r := r) ho
    have htelemetry : op.onTelemetry r.engine.telemetry =
        { r.engine.telemetry with
          fresh := !(Happening.operation op).takes && r.engine.telemetry.fresh } := by
      cases op <;> rfl
    have hlooks : r.looks (.operation op) = false := by
      cases op with
      | tick => exact absurd rfl ho
      | _ => rfl
    show (r.perform op).1.engine.telemetry = _ ∧ (r.perform op).1.engine.state = _ ∧ _
    rw [he]
    exact ⟨htelemetry, rfl, hlooks⟩

theorem Accounts.tick (h : r.Accounts a) :
    (r.happen (.operation .tick)).1.Accounts
      (a.enter (r.engine.looks r.clock.now) none false) := by
  have hwiring := wiring_happen h.wiring_eq (.operation .tick)
  have hwaiting := Engine.waiting_tick h.wiring_eq r.clock.now r.vehicle r.connected
  obtain ⟨⟨ho, hf, ha, hfound, -⟩, -⟩ :=
    Engine.tick_consumes h.wiring_eq r.clock.now r.vehicle r.connected
  rw [h.waiting_eq] at hwaiting
  rw [Engine.consumed, h.waiting_eq] at ho hf hfound
  -- A look moves the last of the unread broadcasts to those consumed; there may be none.
  cases hl : r.engine.looks r.clock.now with
  | false =>
    rw [hl] at ho hf hfound hwaiting
    refine ⟨hwiring, ?_, ho.trans h.orientation_eq, hf.trans h.fresh_eq, ha.trans h.armed_eq, ?_⟩
    · exact hwaiting.trans (congrArg List.getLast? (List.append_nil _).symm)
    · refine hfound.trans (Iff.trans ?_ h.found_iff)
      simp
  | true =>
    rw [hl] at ho hf hfound hwaiting
    refine ⟨hwiring, hwaiting, ?_, ?_, ha.trans h.armed_eq, ?_⟩
    · refine ho.trans ?_
      rw [h.orientation_eq]
      cases hu : a.unread.getLast? <;> simp [Account.enter, hu]
    · refine hf.trans ?_
      rw [h.fresh_eq]
      rfl
    · refine hfound.trans ?_
      rw [h.found_iff]
      cases hu : a.unread.getLast? <;> simp [Account.enter, hu]

theorem Accounts.happen (h : r.Accounts a) (next : Happening) :
    (r.happen next).1.Accounts
      (a.enter (r.looks next) (written next (r.happen next).2) next.takes) := by
  by_cases ht : next = .operation .tick
  · subst ht
    exact h.tick
  · have hwaiting := waiting_happen h.wiring_eq next
    obtain ⟨htelemetry, hstate, hlooks⟩ := between_happen (r := r) ht
    rw [hlooks] at hwaiting ⊢
    refine ⟨wiring_happen h.wiring_eq next, ?_, ?_, ?_, ?_, ?_⟩
    · rw [hwaiting, h.waiting_eq]
      cases written next (r.happen next).2 <;> simp [Account.enter]
    · rw [htelemetry]
      exact h.orientation_eq
    · rw [htelemetry]
      exact congrArg (!next.takes && ·) h.fresh_eq
    · rw [htelemetry]
      exact h.armed_eq
    · rw [hstate]
      exact h.found_iff

/-- The gimbal is found just if something was consumed, before and after. -/
theorem Accounts.found_next (h : r.Accounts a) (next : Happening) :
    let consumed := if r.looks next then r.engine.waiting else none
    r.engine.state = .searching ∧ (r.happen next).1.engine.state = .found ↔
      a.consumed = [] ∧ consumed.isSome = true := by
  intro consumed
  have hfound : (r.happen next).1.engine.state = .found ↔ a.consumed ++ consumed.toList ≠ [] := by
    rw [(h.happen next).found_iff, a.consumed_enter, ← h.waiting_eq]
  constructor
  · rintro ⟨hs, hf⟩
    have hc : a.consumed = [] := by
      by_contra hc
      exact nomatch hs.symm.trans (h.found_iff.2 hc)
    rw [hfound, hc, List.nil_append] at hf
    exact ⟨hc, by simpa [Option.isSome_iff_ne_none] using hf⟩
  · rintro ⟨hc, hsome⟩
    obtain ⟨s, hs⟩ := Option.isSome_iff_exists.1 hsome
    have hlooks : r.looks next = true := by
      by_contra hl
      rw [show consumed = none from if_neg hl] at hs
      cases hs
    refine ⟨?_, ?_⟩
    · cases hstate : r.engine.state with
      | searching => rfl
      | found => exact absurd hc (h.found_iff.1 hstate)
      | disabled => exact absurd hstate (ne_disabled_of_looks hlooks)
    · rw [hfound, hs]
      simp

theorem accounts_run (h : r.Accounts a) (hs : List Happening) :
    (run happen r hs).1.Accounts (r.account a hs) := by
  induction hs generalizing r a with
  | nil => exact h
  | cons next rest ih => exact ih (h.happen next)

theorem accounts_new (settings : Settings) (vehicle : Vehicle) (connected ready : Bool)
    (start : Millis) :
    (new (some .bus) settings vehicle connected ready start).1.Accounts ⟨[], [], false⟩ :=
  ⟨rfl, rfl, rfl, rfl, rfl, nofun, fun h => absurd rfl h⟩

/-- Broadcasts on the bus are kept exactly. At every moment of every run the broadcast that
waits is the one written last since one was consumed; it goes only when a later one is written
or a tick looks, and a tick that looks consumes it. The gimbal is found in just the tick that
consumes the first. The orientation is that of the broadcast consumed last, each angle in
degrees by one multiplication; it is there to be taken if one was consumed since it was last
taken. And no broadcast tells that the gimbal is armed. -/
theorem run_broadcasts (settings : Settings) (vehicle : Vehicle) (connected ready : Bool)
    (start : Millis) (before : List Happening) (next : Happening) :
    let first := (new (some .bus) settings vehicle connected ready start).1
    let r := (run happen first before).1
    let a := first.account ⟨[], [], false⟩ before
    let after := (r.happen next).1.engine
    let incoming := written next (r.happen next).2
    let consumed := if r.looks next then r.engine.waiting else none
    first.account ⟨[], [], false⟩ (before ++ [next]) = a.enter (r.looks next) incoming next.takes ∧
    r.engine.waiting = a.unread.getLast? ∧
    after.waiting = (if r.looks next then none else incoming.or r.engine.waiting) ∧
    (r.engine.state = .searching ∧ after.state = .found ↔
      a.consumed = [] ∧ consumed.isSome = true) ∧
    r.engine.telemetry.orientation =
      (a.consumed.getLast?.map fun s => ⟨s.pitch * .degreesPerRadian, s.roll * .degreesPerRadian,
        s.yaw * .degreesPerRadian⟩).getD .zero ∧
    (r.perform .takeUpdate).2 =
      .update (if a.fresh then some r.engine.telemetry.orientation else none) ∧
    r.engine.telemetry.armed = false := by
  intro first r a after incoming consumed
  have hfirst := accounts_new settings vehicle connected ready start
  have hr : r.Accounts a := accounts_run hfirst before
  refine ⟨account_append first _ before [next], hr.waiting_eq, waiting_happen hr.wiring_eq next,
    hr.found_next next, hr.orientation_eq, ?_, hr.armed_eq⟩
  rw [← hr.fresh_eq]
  rfl

end Rig

end GimbalLink
