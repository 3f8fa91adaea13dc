import GimbalLink.Proofs.Engine.Changes
import GimbalLink.Proofs.Engine.Disabled
import GimbalLink.Proofs.Engine.Hearing
/-
  Finding the gimbal on the serial channel.

  The search asks for the version and later looks for the answer. It looks at the first
  frame of what came in since it asked, as far as it reads, and the gimbal is found just if
  that frame is a version answer. Nothing else finds it, and what it said stays.

  What is proved:
    1. `awaits_version`: from the request on until the look for the answer, what came in
       since is all there is to read.
    2. `found_iff_read`: an operation finds the gimbal just if it is a look for the answer,
       and the answer is read.
    3. `run_discovery`: both together, for runs from the start.
-/
namespace GimbalLink

namespace Rig

/-- The step of the search that an operation takes. -/
def searchStep (r : Rig) : Operation → Option SearchStep
  | .tick =>
    if r.engine.state = .searching then some (r.engine.search.poll r.clock.now).2 else none
  | _ => none

/-- The operation asks for the version. -/
def asksVersion (r : Rig) (op : Operation) : Bool := r.searchStep op = some .request

/-- The version was asked for last, and the answer is to be looked for next. -/
def AwaitsVersion (r : Rig) : Prop :=
  r.engine.state = .searching ∧ r.engine.search.requestNext = false

variable {r : Rig} {op : Operation}

theorem searchStep_eq_some_iff {step : SearchStep} :
    r.searchStep op = some step ↔
      op = .tick ∧ r.engine.state = .searching ∧ (r.engine.search.poll r.clock.now).2 = step := by
  cases op with
  | tick =>
    unfold searchStep
    split <;> simp [*]
  | _ => simp [searchStep]

theorem tick_engine_of_searching (hw : r.engine.wiring = some .serial)
    (hs : r.engine.state = .searching) :
    (r.perform .tick).1.engine = (r.engine.searchSerial r.clock.now).1 :=
  Engine.tick_of_searching hs hw r.clock.now r.vehicle r.connected

/-- An operation that takes no step of the search leaves it, and what the gimbal said. -/
theorem of_no_searchStep (hw : r.engine.wiring = some .serial) (h : r.searchStep op = none) :
    (r.perform op).1.engine.search = r.engine.search ∧
      (r.perform op).1.engine.version = r.engine.version := by
  by_cases ho : op = .tick
  · subst ho
    cases hs : r.engine.state with
    | disabled =>
      rw [perform_tick_of_disabled hs]
      exact ⟨rfl, rfl⟩
    | searching => simp [searchStep, hs] at h
    | found =>
      have ht := Engine.tick_of_found hs hw r.clock.now r.vehicle r.connected
      exact ⟨ht.search_eq, ht.version_eq⟩
  · have hk := perform_keeps (r := r) ho
    exact ⟨hk.search_eq, hk.version_eq⟩

/-- A step of the search that does not meet the gimbal moves the search on. -/
theorem of_searchStep_unmet (hw : r.engine.wiring = some .serial) {step : SearchStep}
    (h : r.searchStep op = some step) (hr : step = .await → r.engine.versionRead = none) :
    (r.perform op).1.engine.search = (r.engine.search.poll r.clock.now).1 := by
  obtain ⟨rfl, hs, hp⟩ := searchStep_eq_some_iff.1 h
  rw [tick_engine_of_searching hw hs]
  exact (Engine.searchSerial_unmet fun ha => hr (hp.symm.trans ha)).search_eq

/-- A look for the answer that reads it meets the gimbal. -/
theorem of_await_met (hw : r.engine.wiring = some .serial) {v : VersionInfo}
    (h : r.searchStep op = some .await) (hr : r.engine.versionRead = some v) :
    (r.perform op).1.engine.state = .found ∧ (r.perform op).1.engine.version = some v := by
  obtain ⟨rfl, hs, hp⟩ := searchStep_eq_some_iff.1 h
  have hm := Engine.searchSerial_met hp hr
  rw [tick_engine_of_searching hw hs]
  exact ⟨hm.state_eq, hm.version_eq⟩

/-- A search does not begin again. -/
theorem searching_before (hw : r.engine.wiring = some .serial)
    (h : (r.perform op).1.engine.state = .searching) : r.engine.state = .searching := by
  cases hstep : r.searchStep op with
  | none => exact (congrArg Search.state (of_no_searchStep hw hstep).1).symm.trans h
  | some step => exact (searchStep_eq_some_iff.1 hstep).2.1

/-- From the request on until the look for the answer, the input is left as it comes. -/
theorem awaits_version : Asking asksVersion AwaitsVersion where
  drops r op h := by
    obtain ⟨rfl, hs, hp⟩ := searchStep_eq_some_iff.1 (of_decide_eq_true h)
    simp only [heed, Engine.heed, hs, hp]
    rfl
  leaves r op hw hn := by
    rintro ⟨hs, hq⟩
    have hn : r.searchStep op ≠ some .request := of_decide_eq_false hn
    cases hstep : r.searchStep op with
    | none =>
      obtain ⟨he, -⟩ := of_no_searchStep hw hstep
      have hb := searching_before hw hs
      refine ⟨⟨hb, (congrArg Search.requestNext he).symm.trans hq⟩, r.heed_of_ne_tick ?_⟩
      rintro rfl
      simp [searchStep, hb] at hstep
    | some step =>
      obtain ⟨rfl, hb, hp⟩ := searchStep_eq_some_iff.1 hstep
      cases step with
      | request => exact absurd hstep hn
      | await =>
        cases hv : r.engine.versionRead with
        | some v =>
          rw [(of_await_met hw hstep hv).1] at hs
          cases hs
        | none =>
          have he := of_searchStep_unmet hw hstep fun _ => hv
          rw [he, (Search.of_await hp).2.2.2] at hq
          cases hq
      | _ =>
        have he := of_searchStep_unmet hw hstep nofun
        rw [he, (Search.of_no_step (by simp [hp])).2] at hq
        refine ⟨⟨hb, hq⟩, ?_⟩
        simp only [heed, Engine.heed, hb, hp]
        rfl

/-- An operation finds the gimbal just if it is a look for the answer, and the answer is
read. -/
theorem found_iff_read (hw : r.engine.wiring = some .serial) :
    r.engine.state = .searching ∧ (r.perform op).1.engine.state = .found ↔
      r.searchStep op = some .await ∧ r.engine.versionRead.isSome := by
  constructor
  · rintro ⟨hb, hf⟩
    refine Classical.byContradiction fun hn => ?_
    -- Whatever is done instead leaves the search as it is, or polls it.
    have hs : (r.perform op).1.engine.state = .searching ∨
        (r.perform op).1.engine.state = .disabled := by
      cases hstep : r.searchStep op with
      | none =>
        exact .inl ((congrArg Search.state (of_no_searchStep hw hstep).1).trans hb)
      | some step =>
        have hr : step = .await → r.engine.versionRead = none := by
          rintro rfl
          exact Option.not_isSome_iff_eq_none.1 fun hv => hn ⟨hstep, hv⟩
        have he := congrArg Search.state (of_searchStep_unmet hw hstep hr)
        exact (r.engine.search.state_poll r.clock.now).imp (fun h => (he.trans h).trans hb)
          fun h => he.trans h
    rw [hf] at hs
    exact hs.elim nofun nofun
  · rintro ⟨ha, hv⟩
    obtain ⟨v, hv⟩ := Option.isSome_iff_exists.1 hv
    exact ⟨(searchStep_eq_some_iff.1 ha).2.1, (of_await_met hw ha hv).1⟩

/-! ## Runs -/

/-- Once the gimbal is found, it stays found, and what it said stays. -/
theorem run_of_found (h : ∃ l p, r.Has l p) (hf : r.engine.state = .found)
    (ops : List Operation) :
    (run perform r ops).1.engine.state = .found ∧
      (run perform r ops).1.engine.version = r.engine.version := by
  induction ops generalizing r with
  | nil => exact ⟨hf, rfl⟩
  | cons op rest ih =>
    obtain ⟨l, p, hl⟩ := h
    have hstep : r.searchStep op = none := by
      cases op with
      | tick => simp [searchStep, hf]
      | _ => rfl
    obtain ⟨he, hv⟩ := of_no_searchStep hl.wiring_eq hstep
    obtain ⟨hstate, hversion⟩ :=
      ih (has_run ⟨l, p, hl⟩ [op]) ((congrArg Search.state he).trans hf)
    exact ⟨hstate, hversion.trans hv⟩

/-- Which version is read, when what came in since some moment is all there is. -/
theorem versionRead_eq_some_iff {bs : Bytes} (h : r.engine.Holds .new bs) {v : VersionInfo} :
    r.engine.versionRead = some v ↔
      ∃ f, firstFrame (bs.take Link.drainLimit) = some f ∧ f.command = Code.version ∧
        VersionInfo.payloadSize ≤ f.payload.length ∧ v = .ofPayload f.payload := by
  rw [Engine.versionRead, Engine.receiveFrame_of_new h, Option.bind_eq_some_iff]
  constructor
  · rintro ⟨f, hf, hv⟩
    exact ⟨f, hf, VersionInfo.ofFrame_eq_ok_iff.1 (toOption_eq_some_iff.1 hv)⟩
  · rintro ⟨f, hf, hv⟩
    exact ⟨f, hf, toOption_eq_some_iff.2 (VersionInfo.ofFrame_eq_ok_iff.2 hv)⟩

/-- The search on the serial channel is exact. After any run from the start, an operation
finds the gimbal just if it is a look for the answer and the first valid frame, in as much
as is read of what came in since the version was last asked for, is a version answer; and
what that frame says is the version, whatever happens later. -/
theorem run_discovery (settings : Settings) (vehicle : Vehicle) (connected ready : Bool)
    (start : Millis) (before : List Operation) (op : Operation) :
    let first := (new (some .serial) settings vehicle connected ready start).1
    let r := (run perform first before).1
    let after := (r.perform op).1
    let answer := firstFrame ((first.heardSince asksVersion [] before).take Link.drainLimit)
    (r.engine.state = .searching ∧ after.engine.state = .found ↔
      r.searchStep op = some .await ∧
        ∃ f, answer = some f ∧ f.command = Code.version ∧
          VersionInfo.payloadSize ≤ f.payload.length) ∧
    (r.engine.state = .searching → after.engine.state = .found →
      ∃ f, answer = some f ∧ ∀ later,
        (run perform after later).1.engine.state = .found ∧
        (run perform after later).1.engine.version = some (.ofPayload f.payload)) := by
  intro first r after answer
  have hfirst := has_new settings vehicle connected ready start
  obtain ⟨l, p, hr⟩ : ∃ l p, r.Has l p := has_run ⟨_, _, hfirst⟩ before
  have hw := hr.wiring_eq
  obtain ⟨x, bs, hx, hl⟩ :=
    awaits_version.run_new_holds settings vehicle connected ready start before
  have hread (ha : r.searchStep op = some .await) (v : VersionInfo) :
      r.engine.versionRead = some v ↔ ∃ f, answer = some f ∧ f.command = Code.version ∧
        VersionInfo.payloadSize ≤ f.payload.length ∧ v = .ofPayload f.payload := by
    obtain ⟨-, hs, hp⟩ := searchStep_eq_some_iff.1 ha
    obtain ⟨rfl, rfl⟩ := hl ⟨hs, (Search.of_await hp).2.2.1⟩
    exact versionRead_eq_some_iff hx
  refine ⟨(found_iff_read hw).trans (and_congr_right fun ha => ?_), fun hb hf => ?_⟩
  · rw [Option.isSome_iff_exists]
    constructor
    · rintro ⟨v, hv⟩
      obtain ⟨f, hf, hc, hs, -⟩ := (hread ha v).1 hv
      exact ⟨f, hf, hc, hs⟩
    · rintro ⟨f, hf, hc, hs⟩
      exact ⟨_, (hread ha _).2 ⟨f, hf, hc, hs, rfl⟩⟩
  · obtain ⟨ha, hv⟩ := (found_iff_read hw).1 ⟨hb, hf⟩
    obtain ⟨v, hv⟩ := Option.isSome_iff_exists.1 hv
    obtain ⟨f, hanswer, -, -, rfl⟩ := (hread ha v).1 hv
    refine ⟨f, hanswer, fun later => ?_⟩
    obtain ⟨hstate, hversion⟩ := run_of_found (has_run ⟨l, p, hr⟩ [op]) hf later
    exact ⟨hstate, hversion.trans (of_await_met hw ha hv).2⟩

/-- A version answer of three like texts. -/
def versionAnswer : Frame where
  start := .device
  command := Code.version
  payload := List.replicate VersionInfo.payloadSize 0x41

/-- A byte that opens nothing comes in, and behind it a whole answer. -/
def answered : List Operation :=
  [.tick, .inject (0x55 :: versionAnswer.toBytes), .advance searchInterval]

/-- The answer waits to be read. -/
def expectant : Rig := (run perform quiet answered).1

theorem run_discovery_answered :
    (expectant.engine.state = .searching ∧ (expectant.perform .tick).1.engine.state = .found) ∧
      ∀ later, (run perform (expectant.perform .tick).1 later).1.engine.version =
        some (.ofPayload versionAnswer.payload) := by
  have hheard : (quiet.heardSince asksVersion [] answered).take Link.drainLimit =
      0x55 :: versionAnswer.toBytes := by decide +kernel
  have hanswer : firstFrame ((quiet.heardSince asksVersion [] answered).take Link.drainLimit) =
      some versionAnswer := by
    rw [hheard, firstFrame_skip rfl]
    exact (List.append_nil versionAnswer.toBytes) ▸ firstFrame_toBytes rfl []
  have ha : expectant.searchStep .tick = some .await := by decide
  have hquiet : (new (some .serial) .standard quiet.vehicle false true 0).1 = quiet := rfl
  have hrig : (run perform quiet answered).1 = expectant := rfl
  have hrun := run_discovery .standard quiet.vehicle false true 0 answered .tick
  simp only [hquiet, hrig] at hrun
  have hr := hrun.1.2 ⟨ha, versionAnswer, hanswer, rfl, by decide⟩
  obtain ⟨f, hf, hlater⟩ := hrun.2 hr.1 hr.2
  obtain rfl : versionAnswer = f := Option.some.inj (hanswer.symm.trans hf)
  exact ⟨hr, fun later => (hlater later).2⟩

end Rig

end GimbalLink
