import GimbalLink.Proofs.Engine.Fields
/-
  What the operator is told of the armed state.

  An announcement of the armed state is due after the gimbal was found, after the banner was
  asked for, and after the state changed; it is made in the first tick in which somebody
  listens. Changes that nobody heard of fall together, so what is announced is not every
  change but the state as it is when it is announced.

  The invariant behind it: once the gimbal is found, an announcement is due, or the last one
  that was made still holds (`Engine.Current`). What does not announce keeps it, since each
  step that finds the gimbal or changes the state has an announcement fall due
  (`Engine.Minds`); and what announces puts it right.

  What is proved:
    1. `Engine.announced_sendNotices`, `Engine.announced_tick`: what the notices of a tick
       announce, and the tick.
    2. `Engine.Current.tick`, `Rig.current_run`: the invariant, over a tick and over a run.
    3. `Rig.run_announced`: announcements never lie, for runs from the start.
-/
namespace GimbalLink

/-! ## Announcements -/

/-- The text tells an armed state. -/
def OperatorText.announces (t : OperatorText) : Bool :=
  t.text = "STorM32: ARMED" || t.text = "STorM32: DISARMED"

/-- The texts of a tick that tell an armed state, in order. -/
def Report.announced (report : Report) : List OperatorText :=
  report.texts.filter OperatorText.announces

def Rig.Outcome.announced : Rig.Outcome → List OperatorText
  | .ticked report => report.announced
  | _ => []

namespace Engine

theorem announces_armedText (armed : Bool) : (armedText armed).announces = true := by
  cases armed <;> decide

theorem announces_foundText : foundText.announces = false := by decide

/-- The version text has a comma in it, and an announcement has none. -/
theorem announces_versionText (v : VersionInfo) : (versionText v).announces = false := by
  have hcomma : ',' ∈ (versionText v).text.toList := by
    simp [versionText]
  have hne (text : String) (h : ',' ∉ text.toList) : (versionText v).text ≠ text := by
    rintro rfl
    exact h hcomma
  rw [OperatorText.announces, Bool.or_eq_false_iff, decide_eq_false_iff_not,
    decide_eq_false_iff_not]
  exact ⟨hne _ (by decide), hne _ (by decide)⟩

/-! ## Notices -/

/-- An announcement is due. -/
def due (e : Engine) : Bool := e.bannerPending || e.telemetry.notice

/-- The banner announces nothing yet; the announcement that is due is to follow. -/
theorem announced_sendBanner (e : Engine) :
    e.sendBanner.1.bannerPending = false ∧ e.sendBanner.1.telemetry.notice = e.due ∧
      e.sendBanner.1.telemetry.armed = e.telemetry.armed ∧
      e.sendBanner.2.filter OperatorText.announces = [] := by
  unfold sendBanner due
  cases hb : e.bannerPending with
  | false => exact ⟨hb, rfl, rfl, rfl⟩
  | true =>
    refine ⟨rfl, rfl, rfl, ?_⟩
    cases e.version <;> simp [announces_foundText, announces_versionText]

theorem announced_sendArmed (e : Engine) (connected : Bool) :
    (e.sendArmed connected).1.bannerPending = e.bannerPending ∧
      (e.sendArmed connected).1.telemetry.notice = (!connected && e.telemetry.notice) ∧
      (e.sendArmed connected).1.telemetry.armed = e.telemetry.armed ∧
      (e.sendArmed connected).2.filter OperatorText.announces =
        if connected && e.telemetry.notice then [armedText e.telemetry.armed] else [] := by
  cases connected with
  | false => exact ⟨rfl, rfl, rfl, rfl⟩
  | true =>
    refine ⟨rfl, rfl, rfl, ?_⟩
    show List.filter _ (if e.telemetry.notice then [armedText e.telemetry.armed] else []) = _
    cases e.telemetry.notice <;> simp [announces_armedText]

/-- The notices announce the armed state if that is due and somebody listens. -/
theorem announced_sendNotices (e : Engine) (connected : Bool) :
    (e.sendNotices connected).1.due = (!connected && e.due) ∧
      (e.sendNotices connected).1.telemetry.armed = e.telemetry.armed ∧
      (e.sendNotices connected).2.filter OperatorText.announces =
        if connected && e.due then [armedText e.telemetry.armed] else [] := by
  obtain ⟨hb, hn, ha, htexts⟩ := e.announced_sendBanner
  obtain ⟨hb', hn', ha', htexts'⟩ := e.sendBanner.1.announced_sendArmed connected
  simp only [sendNotices]
  refine ⟨?_, ha'.trans ha, ?_⟩
  · rw [due, hb', hb, hn', hn, Bool.false_or]
  · rw [List.filter_append, htexts, htexts', hn, ha, List.nil_append]

/-! ## Between announcements -/

/-- If the gimbal is found and no announcement is due, the last one that was made holds. -/
def Current (e : Engine) (said : List OperatorText) : Prop :=
  e.state = .found → e.due = false → said.getLast? = some (armedText e.telemetry.armed)

/-- On the way from `e` to `d` an announcement falls due, or there is nothing to announce. -/
def Minds (e d : Engine) : Prop :=
  d.state = .found → d.due = false →
    e.state = .found ∧ e.due = false ∧ d.telemetry.armed = e.telemetry.armed

variable {e d : Engine} {said : List OperatorText}

theorem Current.of_minds (h : e.Current said) (hm : e.Minds d) : d.Current said := by
  intro hs hd
  obtain ⟨hse, hde, ha⟩ := hm hs hd
  rw [ha]
  exact h hse hde

theorem Minds.of_due (h : d.state = .found → d.due = true) : e.Minds d :=
  fun hs hd => nomatch (h hs).symm.trans hd

theorem Minds.of_eq (hs : d.state = e.state) (hd : d.due = e.due)
    (ha : d.telemetry.armed = e.telemetry.armed) : e.Minds d :=
  fun hs' hd' => ⟨hs ▸ hs', hd ▸ hd', ha⟩

/-! ## Searching -/

theorem due_meet (h : e.state ≠ .found) (version : Option VersionInfo)
    (hf : (e.meet version).state = .found) : (e.meet version).due = true := by
  by_cases hs : e.state = .searching
  · rw [meet_of_searching hs]
    rfl
  · rw [meet_of_ne_searching hs] at hf
    exact absurd hf h

theorem due_awaitBroadcast (h : e.state ≠ .found) (hf : e.awaitBroadcast.1.state = .found) :
    e.awaitBroadcast.1.due = true := by
  have hs : e.receiveStatus.1.state = e.state := by
    rw [receiveStatus_eq]
    rfl
  unfold awaitBroadcast at hf ⊢
  dsimp only at hf ⊢
  split at hf
  · exact absurd (hs.symm.trans hf) h
  · refine due_meet ?_ _ hf
    exact fun hd => h (hs.symm.trans hd)

theorem due_awaitVersion (h : e.state ≠ .found) (hf : e.awaitVersion.1.state = .found) :
    e.awaitVersion.1.due = true := by
  have hs : e.receiveFrame.1.state = e.state := by
    rw [receiveFrame_eq]
    rfl
  unfold awaitVersion at hf ⊢
  dsimp only at hf ⊢
  split at hf
  · exact due_meet (fun hd => h (hs.symm.trans hd)) _ hf
  · exact absurd (hs.symm.trans hf) h

/-- The step that finds the gimbal has an announcement fall due. -/
theorem due_searchStep (h : e.state = .searching) (now : Millis)
    (hf : (e.searchStep now).1.state = .found) : (e.searchStep now).1.due = true := by
  -- Time can end a search and never finds the gimbal, so what is left are the two ways to
  -- wait for a sign of it.
  have hpoll : (e.search.poll now).1.state ≠ .found := by
    have hs : e.search.state ≠ .found := by
      show e.state ≠ .found
      rw [h]
      decide
    obtain hp | hp := e.search.state_poll now
    · rwa [hp]
    · rw [hp]
      decide
  have hcheck : (e.search.checkLimit now).1.state ≠ .found := by
    rw [Search.checkLimit_of_searching h]
    split
    · exact nofun
    · exact fun hf => nomatch h.symm.trans hf
  unfold searchStep at hf ⊢
  split at hf
  · exact nomatch h.symm.trans hf
  · split at hf
    · rw [searchBus_eq] at hf ⊢
      split at hf
      · exact absurd hf hcheck
      · next hc =>
        rw [if_neg hc]
        exact due_awaitBroadcast hcheck hf
    · cases hp : (e.search.poll now).2 with
      | idle =>
        rw [searchSerial_quiet (.inl hp)] at hf
        exact absurd hf hpoll
      | timedOut =>
        rw [searchSerial_quiet (.inr hp)] at hf
        exact absurd hf hpoll
      | request =>
        rw [searchSerial_request hp] at hf
        have hs : (requestVersion { e with search := (e.search.poll now).1 }).1.state =
            (e.search.poll now).1.state := state_attempt _ .getVersion .normal
        exact absurd (hs.symm.trans hf) hpoll
      | await =>
        rw [searchSerial_await hp] at hf ⊢
        exact due_awaitVersion hpoll hf

/-! ## Jobs -/

/-- A change of the armed state calls for a notice. -/
theorem notice_setArmed (t : Telemetry) (armed : Bool) :
    (t.setArmed armed).notice = true ∨
      ((t.setArmed armed).notice = t.notice ∧ (t.setArmed armed).armed = t.armed) := by
  unfold Telemetry.setArmed
  split
  · exact .inr ⟨rfl, rfl⟩
  · exact .inl rfl

theorem notice_applyLive (t : Telemetry) (data : LiveData) :
    (t.applyLive data).1.notice = true ∨
      ((t.applyLive data).1.notice = t.notice ∧ (t.applyLive data).1.armed = t.armed) := by
  obtain ⟨flags, attitude, status⟩ := data
  unfold Telemetry.applyLive
  split
  · cases status with
    | none => cases attitude <;> exact .inr ⟨rfl, rfl⟩
    | some s => cases attitude <;> exact notice_setArmed _ s.isNormal
  · exact .inr ⟨rfl, rfl⟩

theorem minds_applyLive (e : Engine) (data : LiveData) :
    e.Minds { e with telemetry := (e.telemetry.applyLive data).1 } := by
  obtain ht | ⟨hn, ha⟩ := notice_applyLive e.telemetry data
  · exact .of_due fun _ => by rw [due, ht, Bool.or_true]
  · exact .of_eq rfl (by rw [due, due, hn]) ha

theorem minds_runJob (e : Engine) (v : Vehicle) (j : Job) : e.Minds (e.runJob v j).1 := by
  by_cases hj : j = .receive
  · subst hj
    show e.Minds e.receiveJob.1
    unfold receiveJob
    split
    · exact .of_eq rfl rfl rfl
    · have h := e.receiveStatus_eq
      dsimp only
      split
      · rw [h]
        exact .of_eq rfl rfl rfl
      · rw [h]
        exact .of_eq rfl rfl rfl
    · have h := e.receiveFrame_eq
      dsimp only
      split
      · rw [h]
        exact minds_applyLive _ _
      · rw [h]
        exact .of_eq rfl rfl rfl
  · obtain ⟨_, _, _, h⟩ := runJob_eq hj e v
    rw [h]
    exact .of_eq rfl rfl rfl

theorem minds_jobStep (e : Engine) (now : Millis) (v : Vehicle) :
    e.Minds (e.jobStep now v).1 := by
  unfold jobStep
  dsimp only
  split
  · exact .of_eq rfl rfl rfl
  · exact minds_runJob { e with rotation := (e.rotation.poll now).1 } v _

/-! ## Over a tick -/

/-- The notices of a tick put the last announcement right, or leave it as it is. -/
theorem Current.sendNotices (h : e.Current said) (hs : e.state = .found) (connected : Bool) :
    (e.sendNotices connected).1.Current
      (said ++ (e.sendNotices connected).2.filter OperatorText.announces) := by
  obtain ⟨hd, ha, hsaid⟩ := e.announced_sendNotices connected
  intro _ hnow
  rw [hd] at hnow
  rw [hsaid, ha]
  cases hdue : e.due with
  | false => simpa using h hs hdue
  -- What was due is due no more, so somebody listened and it was announced.
  | true =>
    obtain rfl : connected = true := by simpa [hdue] using hnow
    simp

theorem tick_notices (h : e.state = .found) (now : Millis) (v : Vehicle) (connected : Bool) :
    (e.tick now v connected).2.texts = (e.sendNotices connected).2 ∧
      (e.tick now v connected).1 = ((e.sendNotices connected).1.jobStep now v).1 := by
  unfold Engine.tick
  rw [h]
  exact ⟨rfl, rfl⟩

/-- A tick announces the armed state if the gimbal is found, that is due and somebody listens. -/
theorem announced_tick (e : Engine) (now : Millis) (v : Vehicle) (connected : Bool) :
    (e.tick now v connected).2.announced =
      if e.state = .found ∧ connected = true ∧ e.due = true then [armedText e.telemetry.armed]
      else [] := by
  cases hs : e.state with
  | disabled =>
    rw [tick_of_disabled hs]
    rfl
  | searching =>
    simp only [Engine.tick, hs]
    rfl
  | found =>
    obtain ⟨-, -, hsaid⟩ := e.announced_sendNotices connected
    rw [Report.announced, (tick_notices hs now v connected).1, hsaid]
    simp

theorem Current.tick (h : e.Current said) (now : Millis) (v : Vehicle) (connected : Bool) :
    (e.tick now v connected).1.Current (said ++ (e.tick now v connected).2.announced) := by
  cases hs : e.state with
  | disabled =>
    rw [tick_of_disabled hs]
    exact (List.append_nil said).symm ▸ h
  | searching =>
    simp only [Engine.tick, hs]
    -- A gimbal that was just found has an announcement due, so there is nothing to show.
    intro hf hd
    cases (due_searchStep hs now hf).symm.trans hd
  | found =>
    simp only [Engine.tick, hs]
    exact (h.sendNotices hs connected).of_minds (minds_jobStep _ now v)

end Engine

namespace Rig

theorem minds_perform {r : Rig} {op : Operation} (h : op ≠ .tick) :
    r.engine.Minds (r.perform op).1.engine := by
  obtain ⟨link, pointer, -, he⟩ := perform_eq (r := r) h
  have ht : (op.onTelemetry r.engine.telemetry).notice = r.engine.telemetry.notice ∧
      (op.onTelemetry r.engine.telemetry).armed = r.engine.telemetry.armed := by
    cases op <;> exact ⟨rfl, rfl⟩
  rw [he]
  intro hs hd
  simp only [Engine.due, ht.1, Bool.or_eq_false_iff] at hd
  refine ⟨hs, ?_, ht.2⟩
  rw [Engine.due, hd.1.2, hd.2]
  rfl

/-- All texts of a run that tell an armed state, in order. -/
def announced (r : Rig) (ops : List Operation) : List OperatorText :=
  (run perform r ops).2.flatMap Outcome.announced

theorem current_run {r : Rig} {said : List OperatorText} (h : r.engine.Current said)
    (ops : List Operation) :
    (run perform r ops).1.engine.Current (said ++ r.announced ops) := by
  induction ops generalizing r said with
  | nil => exact (List.append_nil said).symm ▸ h
  | cons op rest ih =>
    have hop : (r.perform op).1.engine.Current (said ++ (r.perform op).2.announced) := by
      by_cases ho : op = .tick
      · subst ho
        exact h.tick r.clock.now r.vehicle r.connected
      · have hx : (r.perform op).2.announced = [] := by
          cases op with
          | tick => exact absurd rfl ho
          | _ => rfl
        rw [hx, List.append_nil]
        exact h.of_minds (minds_perform ho)
    have hrest := ih hop
    rw [List.append_assoc] at hrest
    exact hrest

/-- Announcements of the armed state never lie. At every moment of every run, the next tick
sends at most one of the two texts, only if the gimbal is found and somebody listens, and then
the one for the state as it is; once the notices of such a tick are sent, the last of these
texts that was ever sent holds. -/
theorem run_announced (kind : Option ChannelKind) (settings : Settings) (vehicle : Vehicle)
    (connected ready : Bool) (start : Millis) (before : List Operation) :
    let announcement (armed : Bool) : OperatorText :=
      ⟨.info, if armed then "STorM32: ARMED" else "STorM32: DISARMED"⟩
    let first := (new kind settings vehicle connected ready start).1
    let r := (run perform first before).1
    let notified := r.engine.sendNotices r.connected
    (r.engine.state = .found → r.tick.2.texts = notified.2 ∧
      r.tick.1.engine = (notified.1.jobStep r.clock.now r.vehicle).1) ∧
    notified.1.telemetry.armed = r.engine.telemetry.armed ∧
    (r.tick.2.announced = [] ∨ r.engine.state = .found ∧ r.connected = true ∧
      r.tick.2.announced = [announcement r.engine.telemetry.armed]) ∧
    (r.engine.state = .found → r.connected = true →
      (first.announced before ++ r.tick.2.announced).getLast? =
        some (announcement notified.1.telemetry.armed)) := by
  intro announcement first r notified
  have hfirst : first.engine.Current [] := by
    intro hs
    cases kind <;> cases hs
  have hcurrent : r.engine.Current (first.announced before) := current_run hfirst before
  obtain ⟨hd, harmed, -⟩ := r.engine.announced_sendNotices r.connected
  have htick (hs : r.engine.state = .found) : r.tick.2.texts = notified.2 ∧
      r.tick.1.engine = (notified.1.jobStep r.clock.now r.vehicle).1 :=
    Engine.tick_notices hs r.clock.now r.vehicle r.connected
  refine ⟨htick, harmed, ?_, fun hs hc => ?_⟩
  · have hannounced := r.engine.announced_tick r.clock.now r.vehicle r.connected
    split at hannounced
    · next h => exact .inr ⟨h.1, h.2.1, hannounced⟩
    · exact .inl hannounced
  · have hstate : notified.1.state = .found := (r.engine.state_sendNotices r.connected).trans hs
    have hdue : notified.1.due = false := by
      rw [hd, hc]
      rfl
    rw [Report.announced, (htick hs).1]
    exact hcurrent.sendNotices hs r.connected hstate hdue

end Rig

end GimbalLink
