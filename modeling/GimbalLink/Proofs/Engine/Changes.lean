import GimbalLink.Proofs.Engine.Fields
import GimbalLink.Proofs.Message.Answers
/-
  What a tick on the serial channel changes.

  Of what other operations leave alone (`Engine.Keeps`) a tick changes little. A step of the
  search moves the search, and if it reads the version answer the gimbal is met. Once the
  gimbal is found, a tick moves the rotation, and learns what is read when the receive job
  is done. Each of these is stated as a `Keeps` from the engine with just that changed.

  What is proved:
    1. `searchSerial_met`, `searchSerial_unmet`: a step of the search.
    2. `receiveJob_keeps`, `jobStep_keeps`: a job.
    3. `tick_of_found`: a tick once the gimbal is found.
-/
namespace GimbalLink

namespace Engine

variable {e d c : Engine}

/-! ## The parts of a tick -/

theorem receiveFrame_keeps (e : Engine) : e.Keeps e.receiveFrame.1 := .of_link e.receiveFrame_eq

/-- What is read depends on the link alone. -/
theorem receiveFrame_congr (h : d.link = e.link) : d.receiveFrame.2.2 = e.receiveFrame.2.2 := by
  simp only [receiveFrame, h]
  split <;> rfl

theorem requestVersion_keeps (e : Engine) : e.Keeps e.requestVersion.1 :=
  .of_link (attempt_eq e.flushLink.1 .getVersion .normal)

/-! ## Searching -/

/-- The version answer that the engine reads, if that is what it reads. -/
def versionRead (e : Engine) : Option VersionInfo :=
  e.receiveFrame.2.2.bind fun f => (VersionInfo.ofFrame f).toOption

theorem versionRead_congr (h : d.link = e.link) : d.versionRead = e.versionRead := by
  rw [versionRead, receiveFrame_congr h]
  rfl

theorem awaitVersion_eq (e : Engine) :
    e.awaitVersion.1 =
      e.versionRead.elim e.receiveFrame.1 fun v => e.receiveFrame.1.meet (some v) := by
  unfold awaitVersion versionRead
  obtain ⟨d, actions, _ | f⟩ := e.receiveFrame
  · rfl
  · simp only [Option.map_some, Option.bind_some]
    cases VersionInfo.ofFrame f <;> rfl

/-- The version answer is read in an await step, and the gimbal is met. -/
theorem searchSerial_met {now : Millis} {v : VersionInfo} (hs : (e.search.poll now).2 = .await)
    (hv : e.versionRead = some v) :
    Keeps { e with search := { (e.search.poll now).1 with state := .found }, version := some v,
                   rotation := e.rotation.reset } (e.searchSerial now).1 := by
  have hr := receiveFrame_keeps { e with search := (e.search.poll now).1 }
  have hf : versionRead { e with search := (e.search.poll now).1 } = some v :=
    Eq.trans (versionRead_congr (e := e) rfl) hv
  have hm : (receiveFrame { e with search := (e.search.poll now).1 }).1.state = .searching :=
    hr.state_eq.trans (Search.of_await hs).2.1
  rw [searchSerial_await hs, awaitVersion_eq, hf]
  show Keeps _ (meet _ (some v))
  rw [meet_of_searching hm]
  exact ⟨hr.settings_eq, congrArg (fun s : Search => { s with state := .found }) hr.search_eq,
    congrArg Rotation.reset hr.rotation_eq, rfl, hr.orientation_eq, hr.armed_eq⟩

/-- Any other step of the search moves the search and nothing else. -/
theorem searchSerial_unmet {now : Millis}
    (h : (e.search.poll now).2 = .await → e.versionRead = none) :
    Keeps { e with search := (e.search.poll now).1 } (e.searchSerial now).1 := by
  cases hs : (e.search.poll now).2 with
  | idle =>
    rw [searchSerial_quiet (.inl hs)]
    exact .refl _
  | timedOut =>
    rw [searchSerial_quiet (.inr hs)]
    exact .refl _
  | request =>
    rw [searchSerial_request hs]
    exact requestVersion_keeps _
  | await =>
    have hf : versionRead { e with search := (e.search.poll now).1 } = none :=
      Eq.trans (versionRead_congr (e := e) rfl) (h hs)
    rw [searchSerial_await hs, awaitVersion_eq, hf]
    exact receiveFrame_keeps _

/-- A step of the search does not touch what is known of the orientation and the armed
state, and where it finds the gimbal the cycle of jobs starts over. -/
theorem searchSerial_quietly (hs : e.state = .searching) (now : Millis) :
    (e.searchSerial now).1.telemetry.orientation = e.telemetry.orientation ∧
      (e.searchSerial now).1.telemetry.armed = e.telemetry.armed ∧
      ((e.searchSerial now).1.state = .found → (e.searchSerial now).1.rotation.index = 0) := by
  by_cases hm : (e.search.poll now).2 = .await ∧ ∃ v, e.versionRead = some v
  · obtain ⟨ha, v, hv⟩ := hm
    have hk := searchSerial_met ha hv
    exact ⟨hk.orientation_eq, hk.armed_eq, fun _ => congrArg Rotation.index hk.rotation_eq⟩
  · have hk : Keeps { e with search := (e.search.poll now).1 } (e.searchSerial now).1 :=
      searchSerial_unmet fun ha =>
        Option.eq_none_iff_forall_ne_some.2 fun v hv => hm ⟨ha, v, hv⟩
    refine ⟨hk.orientation_eq, hk.armed_eq, fun hf => ?_⟩
    have hp : (e.search.poll now).1.state = .found := hk.state_eq.symm.trans hf
    -- A poll does not find anything.
    obtain h | h := e.search.state_poll now
    · rw [h] at hp
      exact nomatch hs.symm.trans hp
    · rw [h] at hp
      cases hp

theorem tick_of_searching (hs : e.state = .searching) (h : e.wiring = some .serial) (now : Millis)
    (v : Vehicle) (connected : Bool) : (e.tick now v connected).1 = (e.searchSerial now).1 := by
  simp only [tick, hs, searchStep_of_serial h]

/-! ## Jobs -/

/-- The news that the engine reads, if there is any in what it reads. -/
def newsRead (e : Engine) : Option (Orientation × Bool) := e.receiveFrame.2.2.bind Frame.news

theorem receiveJob_keeps (h : e.wiring = some .serial) :
    Keeps { e with telemetry := e.telemetry.learn e.newsRead } e.receiveJob.1 := by
  have hr := e.receiveFrame_keeps
  simp only [receiveJob, h, newsRead]
  generalize e.receiveFrame = got at hr ⊢
  obtain ⟨d, actions, _ | f⟩ := got
  · exact hr
  · simp only [Option.map_some, Option.bind_some]
    cases hf : LiveData.ofFrame f with
    | error err =>
      rw [Frame.news_eq_none hf]
      exact hr
    | ok data =>
      obtain ⟨ho, ha⟩ := d.telemetry.applyLive_news hf
      obtain ⟨hlo, hla⟩ := Telemetry.learn_congr hr.orientation_eq hr.armed_eq f.news
      exact ⟨hr.settings_eq, hr.search_eq, hr.rotation_eq, hr.version_eq, ho.trans hlo,
        ha.trans hla⟩

theorem newsRead_congr (h : d.link = e.link) : d.newsRead = e.newsRead := by
  rw [newsRead, receiveFrame_congr h]
  rfl

/-- What is learnt in a tick at `now` once the gimbal is found. -/
def learnt (e : Engine) (now : Millis) : Option (Orientation × Bool) :=
  if (e.rotation.poll now).2 = some .receive then e.newsRead else none

theorem jobStep_keeps (h : e.wiring = some .serial) (now : Millis) (v : Vehicle) :
    Keeps { e with rotation := (e.rotation.poll now).1,
                   telemetry := e.telemetry.learn (e.learnt now) } (e.jobStep now v).1 := by
  unfold jobStep learnt
  obtain ⟨rotation, _ | j⟩ := e.rotation.poll now
  · exact .refl _
  · by_cases hj : j = .receive
    · subst hj
      have hn : newsRead { e with rotation } = e.newsRead := newsRead_congr rfl
      have hr := receiveJob_keeps (e := { e with rotation }) h
      rw [hn] at hr
      exact hr
    · simp only [Option.some.injEq, hj, if_false]
      exact runJob_keeps hj v

/-- Once the gimbal is found, a tick moves the rotation and learns what is read. -/
theorem tick_of_found (hs : e.state = .found) (h : e.wiring = some .serial) (now : Millis)
    (v : Vehicle) (connected : Bool) :
    Keeps { e with rotation := (e.rotation.poll now).1,
                   telemetry := e.telemetry.learn (e.learnt now) } (e.tick now v connected).1 := by
  have hn := e.sendNotices_keepsAll connected
  have hl := e.sendNotices_link connected
  simp only [tick, hs]
  generalize (e.sendNotices connected).1 = d at hn hl ⊢
  have hw : d.wiring = some .serial := by rw [wiring, hl]; exact h
  have hj := d.jobStep_keeps hw now v
  have hm : d.learnt now = e.learnt now := by
    rw [learnt, learnt, hn.rotation_eq, newsRead_congr hl]
  rw [hn.rotation_eq, hm] at hj
  obtain ⟨ho, ha⟩ := Telemetry.learn_congr hn.orientation_eq hn.armed_eq (e.learnt now)
  have hk : Keeps { e with rotation := (e.rotation.poll now).1,
                           telemetry := e.telemetry.learn (e.learnt now) }
      { d with rotation := (e.rotation.poll now).1,
               telemetry := d.telemetry.learn (e.learnt now) } :=
    ⟨hn.settings_eq, hn.search_eq, rfl, hn.version_eq, ho, ha⟩
  exact hk.trans hj

end Engine

end GimbalLink
