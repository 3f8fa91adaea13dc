import GimbalLink.Telemetry
/-
  What an answer tells.

  An answer may be read or refused. Of live data a second thing is asked: that its flags
  are those of the request. Then both of its parts are there, and the telemetry takes from
  it an orientation and the armed state (`Frame.news`).

  What is proved:
    1. `VersionInfo.ofFrame_eq_ok_iff`: which frames are read as a version answer, and as
       what.
    2. `LiveData.isSome_of_ofFrame`: the parts that were read are those of the flags.
    3. `Frame.news_isSome_iff`, `Telemetry.applyLive_news`: a frame has news just if its live
       data answers the request, and then the telemetry takes the news.
-/
namespace GimbalLink

theorem Frame.expect_eq_ok_iff (f : Frame) (command : UInt8) :
    f.expect command = .ok () ↔ f.command = command := by
  unfold expect
  split <;> simp [*]

theorem toOption_eq_some_iff {ε α : Type} {result : Except ε α} {a : α} :
    result.toOption = some a ↔ result = .ok a := by
  cases result with
  | error e => exact ⟨nofun, nofun⟩
  | ok b =>
    show some b = some a ↔ _
    rw [Option.some.injEq, Except.ok.injEq]

/-! ## Version -/

theorem VersionInfo.ofFrame_eq_ok_iff {f : Frame} {v : VersionInfo} :
    ofFrame f = .ok v ↔
      f.command = Code.version ∧ payloadSize ≤ f.payload.length ∧ v = ofPayload f.payload := by
  by_cases hc : f.command = Code.version
  · have he : f.expect Code.version = .ok () := (f.expect_eq_ok_iff _).2 hc
    by_cases hs : f.payload.length < payloadSize
    · have hf : ofFrame f = .error .malformed := by
        simp only [ofFrame, he, if_pos hs]
        rfl
      rw [hf]
      exact ⟨nofun, fun h => absurd h.2.1 (Nat.not_le.2 hs)⟩
    · have hf : ofFrame f = .ok (ofPayload f.payload) := by
        simp only [ofFrame, he, if_neg hs]
        rfl
      rw [hf]
      constructor
      · intro h
        cases h
        exact ⟨hc, Nat.le_of_not_lt hs, rfl⟩
      · rintro ⟨-, -, rfl⟩
        rfl
  · have hf : ofFrame f = .error .unexpectedCommand := by
      simp only [ofFrame, Frame.expect, if_neg hc]
      rfl
    rw [hf]
    exact ⟨nofun, fun h => absurd h.1 hc⟩

/-! ## Live data -/

namespace Reader

variable {α β : Type}

theorem bind_eq_some {r : Reader α} {k : α → Reader β} {bs : Bytes} {y : β × Bytes}
    (h : (r >>= k) bs = some y) : ∃ a cs, r bs = some (a, cs) ∧ k a cs = some y := by
  obtain ⟨⟨a, cs⟩, hr, hk⟩ := Option.bind_eq_some_iff.1 h
  exact ⟨a, cs, hr, hk⟩

theorem isSome_of_ifPresent {present : Bool} {r : Reader α} {bs cs : Bytes} {o : Option α}
    (h : ifPresent present r bs = some (o, cs)) : o.isSome = present := by
  cases present with
  | true =>
    obtain ⟨a, ds, -, ha⟩ := bind_eq_some (r := r) (k := fun a => pure (some a)) h
    cases ha
    rfl
  | false =>
    cases h
    rfl

end Reader

namespace LiveData

theorem isSome_of_reader {bs cs : Bytes} {d : LiveData} (h : reader bs = some (d, cs)) :
    d.attitude.isSome = d.flags.contains LiveFields.attitude ∧
      d.status.isSome = d.flags.contains LiveFields.status := by
  obtain ⟨w, _, -, h⟩ := Reader.bind_eq_some h
  obtain ⟨_, _, -, h⟩ := Reader.bind_eq_some h
  obtain ⟨attitude, _, ha, h⟩ := Reader.bind_eq_some h
  obtain ⟨status, _, hs, h⟩ := Reader.bind_eq_some h
  cases h
  exact ⟨Reader.isSome_of_ifPresent ha, Reader.isSome_of_ifPresent hs⟩

/-- The parts that were read are those of the flags. -/
theorem isSome_of_ofFrame {f : Frame} {d : LiveData} (h : ofFrame f = .ok d) :
    d.attitude.isSome = d.flags.contains LiveFields.attitude ∧
      d.status.isSome = d.flags.contains LiveFields.status := by
  unfold ofFrame at h
  cases he : f.expect Code.liveData with
  | error e =>
    rw [he] at h
    cases h
  | ok _ =>
    rw [he] at h
    cases hr : reader.exactly f.payload with
    | none =>
      simp only [hr] at h
      cases h
    | some b =>
      simp only [hr] at h
      cases h
      unfold Reader.exactly at hr
      split at hr
      · next hrun =>
        cases hr
        exact isSome_of_reader hrun
      · cases hr

end LiveData

/-! ## News -/

/-- The orientation and the armed state that a frame tells, if it is live data that answers
the request of the cycle. -/
def Frame.news (f : Frame) : Option (Orientation × Bool) :=
  match LiveData.ofFrame f with
  | .ok ⟨flags, some attitude, some status⟩ =>
    if flags = LiveFields.request then some (attitude.orientation, status.isNormal) else none
  | _ => none

/-- Takes over what is told. -/
def Telemetry.learn (t : Telemetry) : Option (Orientation × Bool) → Telemetry
  | some (orientation, armed) => { t with orientation, armed }
  | none => t

/-- What is told counts, and only where nothing is told does it matter what was known. -/
theorem Telemetry.learn_congr {t u : Telemetry} (ho : t.orientation = u.orientation)
    (ha : t.armed = u.armed) (news : Option (Orientation × Bool)) :
    (t.learn news).orientation = (u.learn news).orientation ∧
      (t.learn news).armed = (u.learn news).armed := by
  cases news with
  | none => exact ⟨ho, ha⟩
  | some told => exact ⟨rfl, rfl⟩

theorem LiveData.parts_of_request {f : Frame} {d : LiveData} (h : ofFrame f = .ok d)
    (hd : d.flags = LiveFields.request) :
    ∃ attitude status, d = ⟨LiveFields.request, some attitude, some status⟩ := by
  obtain ⟨flags, attitude, status⟩ := d
  obtain rfl : flags = LiveFields.request := hd
  have both : LiveFields.request.contains LiveFields.attitude = true ∧
      LiveFields.request.contains LiveFields.status = true := by decide
  obtain ⟨ha, hs⟩ := isSome_of_ofFrame h
  obtain ⟨a, rfl⟩ := Option.isSome_iff_exists.1 (ha.trans both.1)
  obtain ⟨s, rfl⟩ := Option.isSome_iff_exists.1 (hs.trans both.2)
  exact ⟨a, s, rfl⟩

theorem Frame.news_of_ofFrame {f : Frame} {a : LiveAttitude} {s : LiveStatus}
    (h : LiveData.ofFrame f = .ok ⟨LiveFields.request, some a, some s⟩) :
    f.news = some (a.orientation, s.isNormal) := by
  simp only [news, h, if_pos]

theorem Frame.news_isSome_iff (f : Frame) :
    f.news.isSome ↔ ∃ d, LiveData.ofFrame f = .ok d ∧ d.flags = LiveFields.request := by
  constructor
  · intro h
    unfold news at h
    split at h
    · next flags attitude status hf =>
      split at h
      · next hr => exact ⟨_, hf, hr⟩
      · cases h
    · cases h
  · rintro ⟨d, hf, hd⟩
    obtain ⟨a, s, rfl⟩ := LiveData.parts_of_request hf hd
    rw [news_of_ofFrame hf]
    rfl

/-- The telemetry learns the news of a frame, and from a frame without news nothing. -/
theorem Telemetry.applyLive_news (t : Telemetry) {f : Frame} {d : LiveData}
    (h : LiveData.ofFrame f = .ok d) :
    (t.applyLive d).1.orientation = (t.learn f.news).orientation ∧
      (t.applyLive d).1.armed = (t.learn f.news).armed := by
  by_cases hd : d.flags = LiveFields.request
  · obtain ⟨a, s, rfl⟩ := LiveData.parts_of_request h hd
    have hs : (t.applyLive ⟨LiveFields.request, some a, some s⟩).1 =
        (t.setOrientation a.orientation).setArmed s.isNormal := rfl
    rw [Frame.news_of_ofFrame h, hs, setArmed_eq]
    exact ⟨rfl, rfl⟩
  · have hn : f.news = none := by
      rw [← Option.not_isSome_iff_eq_none, f.news_isSome_iff]
      rintro ⟨c, hc, hr⟩
      rw [h] at hc
      cases hc
      exact hd hr
    simp only [applyLive, if_neg hd, hn]
    exact ⟨rfl, rfl⟩

theorem Frame.news_eq_none {f : Frame} {e : FrameError} (h : LiveData.ofFrame f = .error e) :
    f.news = none := by
  simp only [news, h]

end GimbalLink
