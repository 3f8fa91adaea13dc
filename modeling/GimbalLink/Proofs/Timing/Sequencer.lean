import GimbalLink.Proofs.Timing.Polling
import GimbalLink.Run
import Mathlib.Data.List.Chain
/-
  The order and the times of the search.

  Three calls move the search, and two timers run in it: the limit counts from the first look
  at the clock, and the interval from the last step. So what a call brings is told by what was
  called before: when the clock was first looked at (`beginning`), whether a poll came before,
  and which steps were taken (`stepsTaken`). Times are as they come; they may go back, and a
  time before another is never later by any interval.

  What is proved:
    1. `Traced.perform`, `Traced.run`: a search holds what its history says, whatever is
       called.
    2. `Traced.look_of_expired`, `Traced.poll_of_not_expired`: so the history tells what a look
       at the clock brings.
    3. `run_of_ended`: once the search has ended, a run changes nothing.
    4. `run_sequenced`: all of it together, for runs from the start.
-/
namespace GimbalLink

namespace Search

/-! ## Histories -/

/-- The time of a call that looks at the clock. -/
def Operation.time? : Operation → Option Millis
  | .poll now => some now
  | .checkLimit now => some now
  | .handle _ => none

/-- The answer to a call that comes to nothing. -/
def Operation.inert : Operation → Outcome
  | .poll _ => .step .idle
  | _ => .moved false

/-- The answer to a call that finds the limit reached. -/
def Operation.ending : Operation → Outcome
  | .poll _ => .step .timedOut
  | _ => .moved true

/-- A step on the serial channel, and when it was taken. -/
structure Taken where
  time : Millis
  step : SearchStep
  deriving DecidableEq

/-- The step that a call took. -/
def Operation.taken : Operation → Outcome → Option Taken
  | .poll now, .step .request => some ⟨now, .request⟩
  | .poll now, .step .await => some ⟨now, .await⟩
  | _, _ => none

/-- The step whose turn it is after so many steps. -/
def turn (count : Nat) : SearchStep := if count % 2 = 0 then .request else .await

theorem turn_ne_timedOut (count : Nat) : turn count ≠ .timedOut := by
  unfold turn
  split <;> decide

/-- The search after a run from the start. -/
def after (limit : Millis) (ops : List Operation) : Search := (run perform (new limit) ops).1

/-- The steps that a run from the start takes, in order. -/
def stepsTaken (limit : Millis) (ops : List Operation) : List Taken :=
  writes Operation.taken ops (run perform (new limit) ops).2

/-- When the clock was first looked at, for a call that looks at it now. -/
def beginning (before : List Operation) (now : Millis) : Millis :=
  (before.filterMap Operation.time?).head?.getD now

/-- There is a limit, and it is reached. -/
def Expired (limit : Millis) (before : List Operation) (now : Millis) : Prop :=
  limit ≠ 0 ∧ beginning before now + limit ≤ now

/-- No poll came before, or the interval has passed since the last step. -/
def StepDue (limit : Millis) (before : List Operation) (now : Millis) : Prop :=
  (∀ t, .poll t ∉ before) ∨
    ∃ x, (stepsTaken limit before).getLast? = some x ∧ x.time + searchInterval ≤ now

/-- What a run from the start does, and what calls bring after it. -/
structure Sequenced (limit : Millis) (ops : List Operation) : Prop where
  /-- Requests and looks for the answer take turns, a request first. -/
  alternate : (stepsTaken limit ops).map Taken.step =
    (List.range (stepsTaken limit ops).length).map turn
  /-- Each step comes an interval after the one before. -/
  spaced : (stepsTaken limit ops).IsChain fun x y => x.time + searchInterval ≤ y.time
  /-- The limit is told at most once. -/
  timedOut_once : (run perform (new limit) ops).2.count (.step .timedOut) ≤ 1
  /-- Without a limit no call tells that one is reached. -/
  unlimited : limit = 0 → .step .timedOut ∉ (run perform (new limit) ops).2 ∧
    ∀ now, ((after limit ops).perform (.checkLimit now)).2 = .moved false
  /-- Within the limit, a poll that is due takes the step whose turn it is. -/
  step_eq : ∀ now, (after limit ops).state = .searching → ¬Expired limit ops now →
    StepDue limit ops now →
      ((after limit ops).perform (.poll now)).2 = .step (turn (stepsTaken limit ops).length)
  /-- A poll that is not due takes none. -/
  idle_eq : ∀ now, (after limit ops).state = .searching → ¬Expired limit ops now →
    ¬StepDue limit ops now → ((after limit ops).perform (.poll now)).2 = .step .idle
  /-- A look at the clock gives the search up just if the limit is reached, and tells it; or
  else the search goes on. -/
  disabled_iff : ∀ op now, op.time? = some now → (after limit ops).state = .searching →
    (((after limit ops).perform op).1.state = .disabled ↔ Expired limit ops now) ∧
    (((after limit ops).perform op).2 = op.ending ↔ Expired limit ops now) ∧
    (¬Expired limit ops now → ((after limit ops).perform op).1.state = .searching)
  /-- A search that has ended stays as it is, and every call comes to nothing. -/
  ended : (after limit ops).state ≠ .searching → ∀ rest,
    run perform (after limit ops) rest = (after limit ops, rest.map Operation.inert)

/-! ## A search and its history -/

/-- A search holds what its history says. The time of the first look is kept only while the
search goes on. -/
structure Traced (limit : Millis) (before : List Operation) (log : List Taken) (s : Search) :
    Prop where
  limit_eq : s.limit = limit
  started_eq : s.state = .searching → s.started = (before.filterMap Operation.time?).head?
  lastStep_eq : s.lastStep = log.getLast?.map Taken.time
  requestNext_eq : s.requestNext = decide (log.length % 2 = 0)
  first_iff : s.state = .searching → (log = [] ↔ ∀ t, .poll t ∉ before)
  steps_eq : log.map Taken.step = (List.range log.length).map turn
  spaced : log.IsChain fun x y => x.time + searchInterval ≤ y.time

variable {limit now : Millis} {before : List Operation} {log : List Taken} {s : Search}

theorem traced_new (limit : Millis) : (new limit).Traced limit [] [] where
  limit_eq := rfl
  started_eq _ := rfl
  lastStep_eq := rfl
  requestNext_eq := rfl
  first_iff _ := ⟨fun _ _ => List.not_mem_nil, fun _ => rfl⟩
  steps_eq := rfl
  spaced := .nil

theorem checkLimit_of_ended (h : s.state ≠ .searching) (now : Millis) :
    s.checkLimit now = (s, false) := if_neg h

namespace Traced

theorem started_getD (h : s.Traced limit before log) (hs : s.state = .searching) (now : Millis) :
    s.started.getD now = beginning before now := by
  rw [h.started_eq hs, beginning]

theorem isOver_iff (h : s.Traced limit before log) (hs : s.state = .searching) (now : Millis) :
    s.isOver (s.started.getD now) now = true ↔ Expired limit before now := by
  rw [h.started_getD hs, isOver, h.limit_eq, Expired, Bool.and_eq_true, decide_eq_true_eq,
    decide_eq_true_eq]
  exact and_congr_right Millis.le_since_iff

theorem isDue_iff (h : s.Traced limit before log) (hs : s.state = .searching) (now : Millis) :
    s.isDue now = true ↔
      (∀ t, .poll t ∉ before) ∨ ∃ x, log.getLast? = some x ∧ x.time + searchInterval ≤ now := by
  rw [isDue, h.lastStep_eq, ← h.first_iff hs]
  cases hl : log.getLast? with
  | none => simp [List.getLast?_eq_none_iff.1 hl]
  | some x =>
    have hne : log ≠ [] := by
      rintro rfl
      cases hl
    simp only [Option.map_some, decide_eq_true_eq, Option.some.injEq, exists_eq_left', hne,
      false_or]
    exact Millis.le_since_iff (by decide)

/-- What a call at a time adds to the looks at the clock. -/
theorem head?_times (before : List Operation) {op : Operation} (h : op.time? = some now) :
    ((before ++ [op]).filterMap Operation.time?).head? = some (beginning before now) := by
  rw [List.filterMap_append, List.head?_append, beginning]
  simp only [List.filterMap_cons, h, List.filterMap_nil, List.head?_cons]
  cases (before.filterMap Operation.time?).head? <;> rfl

/-- A look at the clock that takes no step. -/
theorem look (h : s.Traced limit before log) {op : Operation} (ht : op.time? = some now)
    (hf : s.state = .searching → ∀ t, op = .poll t → log ≠ []) :
    (s.begun now).Traced limit (before ++ [op]) log where
  limit_eq := h.limit_eq
  started_eq hs := by
    rw [head?_times before ht, ← h.started_getD hs]
    rfl
  lastStep_eq := h.lastStep_eq
  requestNext_eq := h.requestNext_eq
  first_iff hs := by
    rw [h.first_iff hs]
    constructor
    · intro hn t hm
      obtain hm | hm := List.mem_append.1 hm
      · exact hn t hm
      · exact hf hs t (List.mem_singleton.1 hm).symm ((h.first_iff hs).2 hn)
    · exact fun hn t hm => hn t (List.mem_append_left _ hm)
  steps_eq := h.steps_eq
  spaced := h.spaced

/-- The search has ended, and no step was taken. -/
theorem of_ended (h : s.Traced limit before log) {next : Search} (hs : next.state ≠ .searching)
    (hk : { next with state := s.state, started := s.started } = s) (op : Operation) :
    next.Traced limit (before ++ [op]) log where
  limit_eq := (congrArg Search.limit hk).trans h.limit_eq
  started_eq hn := absurd hn hs
  lastStep_eq := (congrArg Search.lastStep hk).trans h.lastStep_eq
  requestNext_eq := (congrArg Search.requestNext hk).trans h.requestNext_eq
  first_iff hn := absurd hn hs
  steps_eq := h.steps_eq
  spaced := h.spaced

theorem turn_eq (h : s.Traced limit before log) :
    (if s.requestNext then SearchStep.request else .await) = turn log.length := by
  rw [h.requestNext_eq, turn]
  simp only [decide_eq_true_eq]

/-- A step that is due is the next one in turn. -/
theorem step (h : s.Traced limit before log) (hs : s.state = .searching)
    (hd : s.isDue now = true) :
    ({ s.begun now with lastStep := some now, requestNext := !s.requestNext } : Search).Traced
      limit (before ++ [.poll now]) (log ++ [⟨now, turn log.length⟩]) where
  limit_eq := h.limit_eq
  started_eq _ := by
    rw [head?_times before rfl, ← h.started_getD hs]
    rfl
  lastStep_eq := by rw [List.getLast?_concat]; rfl
  requestNext_eq := by
    rw [h.requestNext_eq, List.length_append, List.length_singleton, ← decide_not]
    exact decide_eq_decide.2 (by omega)
  first_iff _ := by
    refine iff_of_false (by simp) fun hn => hn now ?_
    exact List.mem_append_right _ (List.mem_singleton_self _)
  steps_eq := by
    rw [List.map_append, h.steps_eq, List.length_append, List.length_singleton, List.range_succ,
      List.map_append]
    rfl
  spaced := by
    refine List.isChain_append.2 ⟨h.spaced, .singleton _, fun x hx y hy => ?_⟩
    obtain rfl := Option.some.inj hy
    obtain hp | ⟨z, hz, hle⟩ := (h.isDue_iff hs now).1 hd
    · rw [(h.first_iff hs).2 hp] at hx
      cases hx
    · obtain rfl := Option.some.inj (hz.symm.trans hx)
      exact hle

theorem poll (h : s.Traced limit before log) (now : Millis) :
    (s.poll now).1.Traced limit (before ++ [.poll now])
      (log ++ (Operation.taken (.poll now) (.step (s.poll now).2)).toList) := by
  have hp := s.polled now
  generalize s.poll now = polled at hp ⊢
  -- Three of the outcomes take no step.
  have hq : log ++ [] = log := List.append_nil log
  cases hp with
  | ended hs => exact hq.symm ▸ h.of_ended hs rfl _
  | expired hs ho =>
    have hn : ({ s.begun now with state := .disabled } : Search).state ≠ .searching := nofun
    exact hq.symm ▸ h.of_ended hn rfl _
  | early hs ho hd =>
    refine hq.symm ▸ h.look rfl fun _ t _ => ?_
    -- An interval that has not passed counts from a step.
    rintro rfl
    rw [(h.isDue_iff hs now).2 (.inl ((h.first_iff hs).1 rfl))] at hd
    cases hd
  | request hs ho hd hn =>
    have ht := h.step hs hd
    rw [← h.turn_eq, hn] at ht
    exact ht
  | await hs ho hd hn =>
    have ht := h.step hs hd
    rw [← h.turn_eq, hn] at ht
    exact ht

theorem checkLimit (h : s.Traced limit before log) (now : Millis) :
    (s.checkLimit now).1.Traced limit (before ++ [.checkLimit now]) log := by
  by_cases hs : s.state = .searching
  · rw [checkLimit_of_searching hs]
    split
    · have hn : ({ s.begun now with state := .disabled } : Search).state ≠ .searching := nofun
      exact h.of_ended hn rfl _
    · exact h.look rfl nofun
  · rw [checkLimit_of_ended hs]
    exact h.of_ended hs rfl _

theorem handle (h : s.Traced limit before log) (e : SearchEvent) :
    (s.handle e).1.Traced limit (before ++ [.handle e]) log := by
  by_cases hs : s.state.after e = .searching
  · have hb : s.state = .searching := by
      refine Classical.byContradiction fun hb => hb ?_
      rw [← SearchState.after_of_ne_searching hb e, hs]
    have hn : (s.handle e).1 = s := by
      show { s with state := s.state.after e } = s
      rw [hs, ← hb]
    rw [hn]
    refine ⟨h.limit_eq, ?_, h.lastStep_eq, h.requestNext_eq, ?_, h.steps_eq, h.spaced⟩
    · intro _
      rw [h.started_eq hb, List.filterMap_append, List.head?_append]
      exact (Option.or_none).symm
    · intro _
      rw [h.first_iff hb]
      simp
  · have hn : (s.handle e).1.state ≠ .searching := hs
    exact h.of_ended hn rfl _

/-- Whatever is called, the search holds what its history says. -/
theorem perform (h : s.Traced limit before log) (op : Operation) :
    (s.perform op).1.Traced limit (before ++ [op])
      (log ++ (op.taken (s.perform op).2).toList) := by
  cases op with
  | poll now => exact h.poll now
  | checkLimit now => exact (List.append_nil log).symm ▸ h.checkLimit now
  | handle e => exact (List.append_nil log).symm ▸ h.handle e

theorem run (h : s.Traced limit before log) (ops : List Operation) :
    (run Search.perform s ops).1.Traced limit (before ++ ops)
      (log ++ writes Operation.taken ops (run Search.perform s ops).2) := by
  induction ops generalizing s before log with
  | nil =>
    rw [List.append_nil]
    exact (List.append_nil log).symm ▸ h
  | cons op rest ih =>
    have hr := ih (h.perform op)
    rw [List.append_assoc, List.append_assoc] at hr
    exact writes_cons _ _ _ _ _ ▸ hr

end Traced

/-! ## Calls -/

/-- A call of a search that has ended. -/
theorem perform_of_ended (h : s.state ≠ .searching) (op : Operation) :
    s.perform op = (s, op.inert) := by
  cases op with
  | poll now =>
    have hp := s.polled now
    simp only [perform]
    generalize s.poll now = polled at hp ⊢
    cases hp with
    | ended => rfl
    | _ => contradiction
  | checkLimit now =>
    simp only [perform, checkLimit_of_ended h]
    rfl
  | handle e =>
    simp only [perform, handle, SearchState.after_of_ne_searching h e]
    simp [Operation.inert]

theorem run_of_ended (h : s.state ≠ .searching) (ops : List Operation) :
    run perform s ops = (s, ops.map Operation.inert) := by
  induction ops with
  | nil => rfl
  | cons op rest ih =>
    simp only [run, perform_of_ended h, ih]
    rfl

/-- A call that tells that the limit is reached ends the search. -/
theorem disabled_of_timedOut {op : Operation} (h : (s.perform op).2 = .step .timedOut) :
    (s.perform op).1.state = .disabled := by
  cases op with
  | poll now =>
    have hp := s.polled now
    simp only [perform] at h ⊢
    generalize s.poll now = polled at hp h ⊢
    cases hp with
    | expired => rfl
    | _ => cases h
  | _ => cases h

theorem count_timedOut_le (s : Search) (ops : List Operation) :
    (run perform s ops).2.count (.step .timedOut) ≤ 1 := by
  induction ops generalizing s with
  | nil => exact Nat.zero_le 1
  | cons op rest ih =>
    show ((s.perform op).2 :: (run perform (s.perform op).1 rest).2).count _ ≤ 1
    by_cases ht : (s.perform op).2 = .step .timedOut
    · have hn : (s.perform op).1.state ≠ .searching := by
        rw [disabled_of_timedOut ht]
        decide
      have hz : (rest.map Operation.inert).count (.step .timedOut) = 0 := by
        refine List.count_eq_zero.2 fun hm => ?_
        obtain ⟨op, -, he⟩ := List.mem_map.1 hm
        cases op <;> cases he
      rw [run_of_ended hn, ht, List.count_cons_self, hz]
    · rw [List.count_cons_of_ne ht]
      exact ih _

namespace Traced

theorem look_of_expired (h : s.Traced limit before log) (hs : s.state = .searching)
    (hx : Expired limit before now) {op : Operation} (ht : op.time? = some now) :
    (s.perform op).1.state = .disabled ∧ (s.perform op).2 = op.ending := by
  have ho := (h.isOver_iff hs now).2 hx
  have hc : s.checkLimit now = ({ s.begun now with state := .disabled }, true) :=
    (checkLimit_of_searching hs now).trans (if_pos ho)
  cases op with
  | poll t =>
    obtain rfl := Option.some.inj ht
    simp only [Search.perform, Search.poll, hc]
    exact ⟨rfl, rfl⟩
  | checkLimit t =>
    obtain rfl := Option.some.inj ht
    simp only [Search.perform, hc]
    exact ⟨trivial, rfl⟩
  | handle e => cases ht

theorem checkLimit_of_not_expired (h : s.Traced limit before log) (hs : s.state = .searching)
    (hx : ¬Expired limit before now) :
    s.perform (.checkLimit now) = (s.begun now, .moved false) := by
  have ho := mt (h.isOver_iff hs now).1 hx
  simp only [Search.perform, checkLimit_of_searching hs, if_neg ho]

/-- Within the limit the search goes on, with the next step if one is due. -/
theorem poll_of_not_expired (h : s.Traced limit before log) (hs : s.state = .searching)
    (hx : ¬Expired limit before now) :
    (s.perform (.poll now)).1.state = .searching ∧ (s.perform (.poll now)).2 =
      .step (if s.isDue now then turn log.length else .idle) := by
  have ho := Bool.eq_false_iff.2 (mt (h.isOver_iff hs now).1 hx)
  simp only [Search.perform, poll_of_not_over hs ho, ← h.turn_eq]
  cases s.isDue now <;> exact ⟨hs, rfl⟩

theorem look_of_not_expired (h : s.Traced limit before log) (hs : s.state = .searching)
    (hx : ¬Expired limit before now) {op : Operation} (ht : op.time? = some now) :
    (s.perform op).1.state = .searching ∧ (s.perform op).2 ≠ op.ending := by
  cases op with
  | poll t =>
    obtain rfl := Option.some.inj ht
    obtain ⟨hstate, hstep⟩ := h.poll_of_not_expired hs hx
    refine ⟨hstate, fun he => ?_⟩
    have he := Outcome.step.inj (hstep.symm.trans he)
    split at he
    · exact turn_ne_timedOut _ he
    · cases he
  | checkLimit t =>
    obtain rfl := Option.some.inj ht
    rw [h.checkLimit_of_not_expired hs hx]
    exact ⟨hs, nofun⟩
  | handle e => cases ht

end Traced

theorem traced_after (limit : Millis) (ops : List Operation) :
    (after limit ops).Traced limit ops (stepsTaken limit ops) :=
  (traced_new limit).run ops

/-- A poll that tells that the limit is reached was a look at the clock that found it so. -/
theorem expired_of_timedOut {op : Operation} (h : s.Traced limit before log)
    (ht : (s.perform op).2 = .step .timedOut) : ∃ now, Expired limit before now := by
  have hs : s.state = .searching := by
    refine Classical.byContradiction fun hs => ?_
    rw [perform_of_ended hs] at ht
    cases op <;> cases ht
  cases op with
  | poll now =>
    exact ⟨now, Classical.byContradiction fun hx => (h.look_of_not_expired hs hx rfl).2 ht⟩
  | _ => cases ht

/-! ## Runs -/

/-- The order and the times of the search, for every limit and every run: requests and looks for
the answer take turns at least an interval apart, and a poll takes one as soon as it may; the
search gives up just when the limit is reached, once; and nothing happens when it has ended. -/
theorem run_sequenced (limit : Millis) (ops : List Operation) : Sequenced limit ops := by
  have h := traced_after limit ops
  refine ⟨h.steps_eq, h.spaced, count_timedOut_le _ _, ?_, ?_, ?_, ?_, run_of_ended⟩
  · rintro rfl
    have hnot (before : List Operation) (now : Millis) : ¬Expired 0 before now :=
      fun hx => hx.1 rfl
    constructor
    · intro hm
      obtain ⟨before, op, -, -, ht⟩ := mem_run_iff.1 hm
      obtain ⟨now, hx⟩ := expired_of_timedOut (traced_after 0 before) ht
      exact hnot before now hx
    · intro now
      by_cases hs : (after 0 ops).state = .searching
      · rw [h.checkLimit_of_not_expired hs (hnot ops now)]
      · rw [perform_of_ended hs]
        rfl
  · intro now hs hx hd
    rw [(h.poll_of_not_expired hs hx).2, if_pos ((h.isDue_iff hs now).2 hd)]
  · intro now hs hx hd
    rw [(h.poll_of_not_expired hs hx).2, if_neg (mt (h.isDue_iff hs now).1 hd)]
  · intro op now ht hs
    by_cases hx : Expired limit ops now
    · obtain ⟨hstate, hending⟩ := h.look_of_expired hs hx ht
      exact ⟨iff_of_true hstate hx, iff_of_true hending hx, fun hn => absurd hx hn⟩
    · obtain ⟨hstate, hending⟩ := h.look_of_not_expired hs hx ht
      have hne : ((after limit ops).perform op).1.state ≠ .disabled := by
        rw [hstate]
        decide
      exact ⟨iff_of_false hne hx, iff_of_false hending hx, fun _ => hstate⟩

/-- The limit and a step are due at once, the clock goes back, and an answer comes too late. -/
example :
    (run perform (new 250)
      [.checkLimit 900, .poll 1000, .poll 1099, .poll 1100, .poll 40, .poll 1149, .poll 1200,
        .handle .versionReceived, .checkLimit 5000]).2 =
      [.moved false, .step .request, .step .idle, .step .await, .step .idle, .step .idle,
        .step .timedOut, .moved false, .moved false] := by
  decide

end Search

end GimbalLink
