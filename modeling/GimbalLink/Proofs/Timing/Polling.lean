import GimbalLink.Timing.Rotation
import GimbalLink.Timing.Search
/-
  What a poll can do.

  A poll of the search and a poll of the rotation each have a few outcomes, and each
  outcome goes with a guard and with what is stored. They are listed here once; whatever
  holds over polls is read off these lists.

  What is proved:
    1. `Search.polled`: a poll of the search is one of the five of `Search.Polled`.
    2. `Rotation.polled`: a poll of the rotation moves past the job that it hands out, or
       leaves the rotation as it is; `Job.index_ofIndex`: where the cycle has this job.
-/
namespace GimbalLink

namespace Search

/-- The search once it has been looked at. -/
def begun (s : Search) (now : Millis) : Search := { s with started := some (s.started.getD now) }

/-- What a poll at `now` makes of a search, and the step that it gives. -/
inductive Polled (s : Search) (now : Millis) : Search × SearchStep → Prop where
  /-- The search has ended before. -/
  | ended (h : s.state ≠ .searching) : Polled s now (s, .idle)
  /-- The limit is reached. -/
  | expired (h : s.state = .searching) (ho : s.isOver (s.started.getD now) now = true) :
    Polled s now ({ s.begun now with state := .disabled }, .timedOut)
  /-- The interval has not passed. -/
  | early (h : s.state = .searching) (ho : s.isOver (s.started.getD now) now = false)
    (hd : s.isDue now = false) : Polled s now (s.begun now, .idle)
  | request (h : s.state = .searching) (ho : s.isOver (s.started.getD now) now = false)
    (hd : s.isDue now = true) (hn : s.requestNext = true) :
    Polled s now ({ s.begun now with lastStep := some now, requestNext := false }, .request)
  | await (h : s.state = .searching) (ho : s.isOver (s.started.getD now) now = false)
    (hd : s.isDue now = true) (hn : s.requestNext = false) :
    Polled s now ({ s.begun now with lastStep := some now, requestNext := true }, .await)

theorem checkLimit_of_searching {s : Search} (h : s.state = .searching) (now : Millis) :
    s.checkLimit now =
      if s.isOver (s.started.getD now) now then ({ s.begun now with state := .disabled }, true)
      else (s.begun now, false) := by
  obtain ⟨state, limit, started, lastStep, requestNext⟩ := s
  cases h
  rfl

/-- A poll within the limit. -/
theorem poll_of_not_over {s : Search} {now : Millis} (h : s.state = .searching)
    (ho : s.isOver (s.started.getD now) now = false) :
    s.poll now =
      if s.isDue now then
        ({ s.begun now with lastStep := some now, requestNext := !s.requestNext },
          if s.requestNext then .request else .await)
      else (s.begun now, .idle) := by
  simp only [poll, checkLimit_of_searching h, ho]
  obtain ⟨state, limit, started, lastStep, requestNext⟩ := s
  cases h
  rfl

theorem polled (s : Search) (now : Millis) : s.Polled now (s.poll now) := by
  by_cases h : s.state = .searching
  · cases ho : s.isOver (s.started.getD now) now with
    | true =>
      simp only [poll, checkLimit_of_searching h, ho]
      exact .expired h ho
    | false =>
      rw [poll_of_not_over h ho]
      cases hd : s.isDue now with
      | false => exact .early h ho hd
      | true =>
        cases hn : s.requestNext with
        | true => exact .request h ho hd hn
        | false => exact .await h ho hd hn
  · have hp : s.poll now = (s, .idle) := by
      simp only [poll, checkLimit, h, decide_false, Bool.false_and, Bool.false_eq_true, if_false]
    exact hp ▸ .ended h

theorem of_request {s : Search} {now : Millis} (h : (s.poll now).2 = .request) :
    s.state = .searching ∧ (s.poll now).1.state = .searching ∧
      (s.poll now).1.requestNext = false := by
  have hp := s.polled now
  generalize s.poll now = polled at h hp
  cases hp with
  | request hs ho hd hn => exact ⟨hs, hs, rfl⟩
  | _ => cases h

theorem of_await {s : Search} {now : Millis} (h : (s.poll now).2 = .await) :
    s.state = .searching ∧ (s.poll now).1.state = .searching ∧ s.requestNext = false ∧
      (s.poll now).1.requestNext = true := by
  have hp := s.polled now
  generalize s.poll now = polled at h hp
  cases hp with
  | await hs ho hd hn => exact ⟨hs, hs, hn, rfl⟩
  | _ => cases h

/-- A poll finds nothing. -/
theorem state_poll (s : Search) (now : Millis) :
    (s.poll now).1.state = s.state ∨ (s.poll now).1.state = .disabled := by
  have hp := s.polled now
  generalize s.poll now = polled at hp
  cases hp with
  | expired hs ho => exact .inr rfl
  | _ => exact .inl rfl

/-- A poll without a step may end the search, and changes nothing else that is looked at. -/
theorem of_no_step {s : Search} {now : Millis}
    (h : (s.poll now).2 = .idle ∨ (s.poll now).2 = .timedOut) :
    ((s.poll now).1.state = s.state ∨ (s.poll now).1.state = .disabled) ∧
      (s.poll now).1.requestNext = s.requestNext := by
  have hp := s.polled now
  generalize s.poll now = polled at h hp
  cases hp with
  | ended hs => exact ⟨.inl rfl, rfl⟩
  | expired hs ho => exact ⟨.inr rfl, rfl⟩
  | early hs ho hd => exact ⟨.inl rfl, rfl⟩
  | _ => simp at h

end Search

theorem Job.index_ofIndex (i : Nat) : (ofIndex i).index = i % jobCount := by
  have hlt : i % jobCount < 5 := Nat.mod_lt i (by decide)
  unfold ofIndex
  generalize i % jobCount = k at hlt ⊢
  obtain rfl | rfl | rfl | rfl | rfl : k = 0 ∨ k = 1 ∨ k = 2 ∨ k = 3 ∨ k = 4 := by omega
  all_goals rfl

namespace Rotation

/-- What a poll at `now` makes of a rotation, and the job that it hands out. -/
inductive Polled (r : Rotation) (now : Millis) : Rotation × Option Job → Prop where
  /-- The interval has not passed. -/
  | early (h : r.isDue now = false) : Polled r now (r, none)
  | due (h : r.isDue now = true) :
    Polled r now (⟨(r.index + 1) % jobCount, some now⟩, some (.ofIndex r.index))

theorem polled (r : Rotation) (now : Millis) : r.Polled now (r.poll now) := by
  unfold poll
  cases h : r.isDue now with
  | false => exact .early h
  | true => exact .due h

/-- The job that is handed out is the one at the rotation's place. -/
theorem poll_of_some {r : Rotation} {now : Millis} {j : Job} (h : (r.poll now).2 = some j) :
    j = .ofIndex r.index ∧ (r.poll now).1.index = (r.index + 1) % jobCount := by
  have hp := r.polled now
  generalize r.poll now = polled at h hp ⊢
  cases hp with
  | early hd => cases h
  | due hd => exact ⟨(Option.some.inj h).symm, rfl⟩

theorem poll_of_none {r : Rotation} {now : Millis} (h : (r.poll now).2 = none) :
    (r.poll now).1 = r := by
  have hp := r.polled now
  generalize r.poll now = polled at h hp ⊢
  cases hp with
  | early hd => rfl
  | due hd => cases h

end Rotation

end GimbalLink
