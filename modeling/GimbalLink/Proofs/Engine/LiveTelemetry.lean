import GimbalLink.Proofs.Engine.Discovery
/-
  Live telemetry on the serial channel.

  In every cycle of jobs live data is asked for once, and three jobs later the answer is
  read. What is read is the first frame of what came in since, and if it answers the request,
  the orientation and the armed state are those that it tells. Nothing else changes them,
  and what earlier cycles brought does not matter.

  What is proved:
    1. `jobs_eq_cycle`: the jobs of a run go round in their order.
    2. `awaits_live`: from the request on until the answer is read, what came in since is all
       there is to read.
    3. `perform_learns`: an operation teaches the engine what the receive job reads.
    4. `run_telemetry`: all of it together, for runs from the start.
-/
namespace GimbalLink

theorem Job.ofIndex_congr {i n : Nat} (h : i % jobCount = n % jobCount) :
    ofIndex i = ofIndex n := by
  rw [ofIndex, ofIndex, h]

namespace Rig

/-- The job that an operation does. -/
def job (r : Rig) : Operation → Option Job
  | .tick => if r.engine.state = .found then (r.engine.rotation.poll r.clock.now).2 else none
  | _ => none

/-- The jobs done over a run, in order. -/
def jobs (r : Rig) : List Operation → List Job
  | [] => []
  | op :: rest => (r.job op).toList ++ (r.perform op).1.jobs rest

/-- The operation asks for live data. -/
def asksLive (r : Rig) (op : Operation) : Bool := r.job op = some .request

/-- Live data was asked for in this cycle, and the answer is still to be read. -/
def AwaitsLive (r : Rig) : Prop :=
  r.engine.state = .found ∧ Job.request.index < r.engine.rotation.index % jobCount

variable {r : Rig} {op : Operation}

theorem job_eq_some_iff {j : Job} :
    r.job op = some j ↔
      op = .tick ∧ r.engine.state = .found ∧ (r.engine.rotation.poll r.clock.now).2 = some j := by
  cases op with
  | tick =>
    unfold job
    split <;> simp [*]
  | _ => simp [job]

/-! ## The rotation -/

/-- A job that is done is the one at the rotation's place, and the rotation moves past it. -/
theorem of_job (hw : r.engine.wiring = some .serial) {j : Job} (h : r.job op = some j) :
    (r.perform op).1.engine.state = .found ∧ j = .ofIndex r.engine.rotation.index ∧
      (r.perform op).1.engine.rotation.index = (r.engine.rotation.index + 1) % jobCount := by
  obtain ⟨rfl, hs, hp⟩ := job_eq_some_iff.1 h
  have ht := Engine.tick_of_found hs hw r.clock.now r.vehicle r.connected
  obtain ⟨hj, hi⟩ := Rotation.poll_of_some hp
  exact ⟨ht.state_eq.trans hs, hj, (congrArg Rotation.index ht.rotation_eq).trans hi⟩

/-- Without a job the rotation stays where it is; or the gimbal is met, and it starts over. -/
theorem of_no_job (hw : r.engine.wiring = some .serial) (h : r.job op = none)
    (hf : (r.perform op).1.engine.state = .found) :
    r.engine.state = .found ∧ r.heed op = .leaves ∧
        (r.perform op).1.engine.rotation.index = r.engine.rotation.index ∨
      r.engine.state = .searching ∧ (r.perform op).1.engine.rotation.index = 0 := by
  by_cases ho : op = .tick
  · subst ho
    cases hs : r.engine.state with
    | disabled =>
      rw [perform_tick_of_disabled hs] at hf
      exact nomatch hs.symm.trans hf
    | searching =>
      rw [tick_engine_of_searching hw hs] at hf ⊢
      exact .inr ⟨rfl, (Engine.searchSerial_quietly hs r.clock.now).2.2 hf⟩
    | found =>
      have ht := Engine.tick_of_found hs hw r.clock.now r.vehicle r.connected
      have hj : (r.engine.rotation.poll r.clock.now).2 = none := by
        rw [job, if_pos hs] at h
        exact h
      have hrot := ht.rotation_eq.trans (Rotation.poll_of_none hj)
      refine .inl ⟨rfl, ?_, congrArg Rotation.index hrot⟩
      simp only [heed, Engine.heed, hs, hj]
      rfl
  · have hk := perform_keeps (r := r) ho
    exact .inl ⟨hk.state_eq.symm.trans hf, r.heed_of_ne_tick ho,
      congrArg Rotation.index hk.rotation_eq⟩

/-- From the request on until the answer is read, the input is left as it comes. -/
theorem awaits_live : Asking asksLive AwaitsLive where
  drops r op h := by
    obtain ⟨rfl, hs, hp⟩ := job_eq_some_iff.1 (of_decide_eq_true h)
    simp only [heed, Engine.heed, hs, hp]
    rfl
  leaves r op hw hn := by
    rintro ⟨hs, hi⟩
    have hn : r.job op ≠ some .request := of_decide_eq_false hn
    cases hj : r.job op with
    | none =>
      obtain ⟨hb, hh, he⟩ | ⟨-, he⟩ := of_no_job hw hj hs
      · rw [he] at hi
        exact ⟨⟨hb, hi⟩, hh⟩
      · rw [he] at hi
        exact absurd hi (by decide)
    | some j =>
      obtain ⟨rfl, hb, hp⟩ := job_eq_some_iff.1 hj
      obtain ⟨-, hat, he⟩ := of_job hw hj
      rw [he, Nat.mod_mod] at hi
      -- The place before was that of the request, or of one of the two jobs behind it.
      obtain hm | hm : r.engine.rotation.index % jobCount = 1 ∨
          r.engine.rotation.index % jobCount = 2 ∨ r.engine.rotation.index % jobCount = 3 := by
        simp only [jobCount, Job.index] at hi ⊢
        omega
      · rw [Job.ofIndex, hm] at hat
        exact absurd (hj.trans (congrArg some hat)) hn
      · have hleaves : j.heed = .leaves := by
          rw [hat, Job.ofIndex]
          obtain hm | hm := hm <;> rw [hm] <;> rfl
        refine ⟨⟨hb, ?_⟩, ?_⟩
        · simp only [Job.index]
          omega
        · simp only [heed, Engine.heed, hb, hp]
          exact hleaves

/-! ## The jobs of a run -/

/-- After `n` jobs, the next is the one at the place `n`. -/
structure InTurn (r : Rig) (n : Nat) : Prop where
  of_found : r.engine.state = .found → r.engine.rotation.index % jobCount = n % jobCount
  of_searching : r.engine.state = .searching → n = 0

theorem InTurn.of_no_job {n : Nat} (h : r.InTurn n) (hw : r.engine.wiring = some .serial)
    (hj : r.job op = none) : (r.perform op).1.InTurn n := by
  refine ⟨fun hf => ?_, fun hs => h.of_searching (searching_before hw hs)⟩
  obtain ⟨hb, -, he⟩ | ⟨hb, he⟩ := Rig.of_no_job hw hj hf
  · rw [he]
    exact h.of_found hb
  · rw [he, h.of_searching hb]

theorem InTurn.of_job {n : Nat} (h : r.InTurn n) (hw : r.engine.wiring = some .serial) {j : Job}
    (hj : r.job op = some j) : j = .ofIndex n ∧ (r.perform op).1.InTurn (n + 1) := by
  obtain ⟨hf, hat, he⟩ := Rig.of_job hw hj
  have hi := h.of_found (job_eq_some_iff.1 hj).2.1
  refine ⟨hat.trans (Job.ofIndex_congr hi), fun _ => ?_, fun hs => nomatch hf.symm.trans hs⟩
  rw [he, Nat.mod_mod, Nat.add_mod, hi, ← Nat.add_mod]

/-- The jobs of a run go round in their order, from the place that is next. -/
theorem jobs_eq_cycle (hr : ∃ l p, r.Has l p) {n : Nat} (h : r.InTurn n) (ops : List Operation) :
    r.jobs ops = (List.range' n (r.jobs ops).length).map Job.ofIndex := by
  induction ops generalizing r n with
  | nil => rfl
  | cons op rest ih =>
    obtain ⟨l, p, hl⟩ := hr
    have hw := hl.wiring_eq
    have hnext : ∃ l p, (r.perform op).1.Has l p := has_run ⟨l, p, hl⟩ [op]
    cases hj : r.job op with
    | none =>
      have hi := ih hnext (h.of_no_job hw hj)
      simp only [jobs, hj]
      exact hi
    | some j =>
      obtain ⟨hat, hturn⟩ := h.of_job hw hj
      have hi := ih hnext hturn
      simp only [jobs, hj, hat]
      show Job.ofIndex n :: (r.perform op).1.jobs rest =
        Job.ofIndex n :: (List.range' (n + 1) ((r.perform op).1.jobs rest).length).map Job.ofIndex
      rw [← hi]

/-! ## What is learnt -/

/-- What an operation learns on the serial channel. -/
def learns (r : Rig) (op : Operation) : Option (Orientation × Bool) :=
  if r.job op = some .receive then r.engine.newsRead else none

/-- An operation teaches the engine what the receive job reads, and nothing else. -/
theorem perform_learns (hw : r.engine.wiring = some .serial) (op : Operation) :
    (r.perform op).1.engine.telemetry.orientation =
        (r.engine.telemetry.learn (r.learns op)).orientation ∧
      (r.perform op).1.engine.telemetry.armed =
        (r.engine.telemetry.learn (r.learns op)).armed := by
  by_cases ho : op = .tick
  · subst ho
    cases hs : r.engine.state with
    | disabled =>
      have hl : r.learns .tick = none := by simp [learns, job, hs]
      rw [perform_tick_of_disabled hs, hl]
      exact ⟨rfl, rfl⟩
    | searching =>
      have hl : r.learns .tick = none := by simp [learns, job, hs]
      obtain ⟨horient, harmed, -⟩ := Engine.searchSerial_quietly hs r.clock.now
      rw [tick_engine_of_searching hw hs, hl]
      exact ⟨horient, harmed⟩
    | found =>
      have ht := Engine.tick_of_found hs hw r.clock.now r.vehicle r.connected
      have hl : r.learns .tick = r.engine.learnt r.clock.now := by
        simp only [learns, job, hs, if_true, Engine.learnt]
      rw [hl]
      exact ⟨ht.orientation_eq, ht.armed_eq⟩
  · have hk := perform_keeps (r := r) ho
    have hl : r.learns op = none := by
      cases op with
      | tick => exact absurd rfl ho
      | _ => rfl
    rw [hl]
    exact ⟨hk.orientation_eq, hk.armed_eq⟩

theorem awaitsLive_of_receive (hw : r.engine.wiring = some .serial)
    (h : r.job op = some .receive) : r.AwaitsLive := by
  obtain ⟨-, hat, -⟩ := of_job hw h
  refine ⟨(job_eq_some_iff.1 h).2.1, ?_⟩
  generalize hi : r.engine.rotation.index % jobCount = i
  rw [Job.ofIndex, hi] at hat
  -- Of the places up to that of the request, none is that of the receive job.
  by_cases hlt : Job.request.index < i
  · exact hlt
  · obtain rfl | rfl : i = 0 ∨ i = 1 := by
      simp only [Job.index] at hlt
      omega
    · cases hat
    · cases hat

/-- Telemetry on the serial channel is exact. Over any run from the start the jobs go round in
their order. If an operation does the receive job, and the first valid frame, in as much as
is read of what came in since live data was last asked for, is live data with the flags of
the request, then the orientation and the armed state are those of its parts; in every other
case they stay as they were. And a frame of the gimbal is the first if it comes first. -/
theorem run_telemetry (settings : Settings) (vehicle : Vehicle) (connected ready : Bool)
    (start : Millis) (before : List Operation) (op : Operation) :
    let first := (new (some .serial) settings vehicle connected ready start).1
    let r := (run perform first before).1
    let old := r.engine.telemetry
    let new := (r.perform op).1.engine.telemetry
    let heard := first.heardSince asksLive [] before
    let answer := firstFrame (heard.take Link.drainLimit)
    first.jobs before = (List.range (first.jobs before).length).map Job.ofIndex ∧
    (∀ f d, r.job op = some .receive → answer = some f → LiveData.ofFrame f = .ok d →
      d.flags = LiveFields.request →
      ∃ a s, d.attitude = some a ∧ d.status = some s ∧
        new.orientation = ⟨-a.pitch, a.roll, -a.yaw⟩ ∧ new.armed = isNormalState s.state) ∧
    ((¬∃ f d, r.job op = some .receive ∧ answer = some f ∧ LiveData.ofFrame f = .ok d ∧
        d.flags = LiveFields.request) →
      new.orientation = old.orientation ∧ new.armed = old.armed) ∧
    ∀ f rest, heard = f.toBytes ++ rest → f.start = .device → answer = some f := by
  intro first r old new heard answer
  have hfirst := has_new settings vehicle connected ready start
  obtain ⟨l, p, hr⟩ : ∃ l p, r.Has l p := has_run ⟨_, _, hfirst⟩ before
  have hw := hr.wiring_eq
  obtain ⟨x, bs, hx, hl⟩ :=
    awaits_live.run_new_holds settings vehicle connected ready start before
  have hread (hj : r.job op = some .receive) : r.learns op = answer.bind Frame.news := by
    obtain ⟨rfl, rfl⟩ := hl (awaitsLive_of_receive hw hj)
    rw [learns, if_pos hj, Engine.newsRead, Engine.receiveFrame_of_new hx]
  obtain ⟨horient, harmed⟩ := perform_learns hw op
  refine ⟨?_, fun f d hj ha hd hflags => ?_, fun hno => ?_, fun f rest hh hf => ?_⟩
  · have hturn : first.InTurn 0 := ⟨fun _ => rfl, fun _ => rfl⟩
    rw [List.range_eq_range']
    exact jobs_eq_cycle ⟨_, _, hfirst⟩ hturn before
  · obtain ⟨a, s, rfl⟩ := LiveData.parts_of_request hd hflags
    have hn : r.learns op = some (a.orientation, s.isNormal) := by
      rw [hread hj, ha, Option.bind_some, Frame.news_of_ofFrame hd]
    rw [hn] at horient harmed
    exact ⟨a, s, rfl, rfl, horient, harmed⟩
  · have hn : r.learns op = none := by
      by_cases hj : r.job op = some .receive
      · rw [hread hj, Option.bind_eq_none_iff]
        intro f ha
        rw [← Option.not_isSome_iff_eq_none, f.news_isSome_iff]
        rintro ⟨d, hd, hflags⟩
        exact hno ⟨f, d, hj, ha, hd, hflags⟩
      · exact if_neg hj
    rw [hn] at horient harmed
    exact ⟨horient, harmed⟩
  · show firstFrame (heard.take Link.drainLimit) = some f
    rw [hh]
    exact firstFrame_take_toBytes hf rest

/-- One degree of pitch, in a gimbal that is levelled. -/
def levelled : LiveData :=
  ⟨LiveFields.request, some ⟨⟨0x3f800000⟩, .zero, .zero⟩, some ⟨6, 0, 0, 0, 0⟩⟩

def liveAnswer : Frame where
  start := .device
  command := Code.liveData
  payload := levelled.payload

/-- Found, the engine does four jobs; behind its request an answer comes in, and another. -/
def polledLive : List Operation :=
  answered ++ [.tick, .tick, .advance jobInterval, .inject [0x12, 0x34], .tick,
    .inject (liveAnswer.toBytes ++ versionAnswer.toBytes), .advance jobInterval, .tick,
    .advance jobInterval, .tick, .advance jobInterval]

/-- The answers wait to be read. -/
def attentive : Rig := (run perform quiet polledLive).1

theorem run_telemetry_levelled :
    attentive.job .tick = some .receive ∧ attentive.engine.telemetry.armed = false ∧
      (attentive.perform .tick).1.engine.telemetry.orientation =
        ⟨-⟨0x3f800000⟩, .zero, -.zero⟩ ∧
      (attentive.perform .tick).1.engine.telemetry.armed = true := by
  have hquiet : (new (some .serial) .standard quiet.vehicle false true 0).1 = quiet := rfl
  have hrig : (run perform quiet polledLive).1 = attentive := rfl
  have hheard : quiet.heardSince asksLive [] polledLive =
      liveAnswer.toBytes ++ versionAnswer.toBytes := by decide +kernel
  have hj : attentive.job .tick = some .receive := by decide +kernel
  have hd : LiveData.ofFrame liveAnswer = .ok levelled := rfl
  obtain ⟨-, hlearn, -, htimely⟩ :=
    run_telemetry .standard quiet.vehicle false true 0 polledLive .tick
  simp only [hquiet, hrig] at hlearn htimely
  have ha := htimely liveAnswer versionAnswer.toBytes hheard rfl
  obtain ⟨a, s, hattitude, hstatus, horient, harmed⟩ := hlearn liveAnswer levelled hj ha hd rfl
  cases hattitude
  cases hstatus
  exact ⟨hj, by decide +kernel, horient, harmed⟩

end Rig

end GimbalLink
