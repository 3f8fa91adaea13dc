import GimbalLink.Proofs.Timing.Polling
import GimbalLink.Run
/-
  The turns of the rotation.

  A rotation holds two things: the place in the cycle, and the time of the last turn. A reset
  touches only the first. So the jobs go round from the start, or from the last reset on, while
  the interval counts over all turns. Times are as they come; they may go back, and then a poll
  hands nothing out.

  What is proved:
    1. `Timed.perform`, `Timed.run`: the turns of a run are an interval apart, and the rotation
       keeps the time of the last one.
    2. `Timed.isDue_iff`: so a job is due just if no turn was handed out within the interval.
    3. `Ordered.poll`, `Ordered.run`: without a reset, each turn is the next of the cycle.
    4. `run_regular`: all of it together, for runs from the start.
-/
namespace GimbalLink

namespace Rotation

/-! ## Turns -/

/-- A job that was handed out, and when. -/
structure Turn where
  time : Millis
  job : Job
  deriving DecidableEq

/-- The turn that came of an operation. -/
def Operation.turn : Operation → Option Job → Option Turn
  | .poll now, some j => some ⟨now, j⟩
  | _, _ => none

/-- The turns that come of operations, in order. -/
def turnsFrom (r : Rotation) (ops : List Operation) : List Turn :=
  writes Operation.turn ops (run perform r ops).2

/-- The rotation after a run from the start. -/
def after (ops : List Operation) : Rotation := (run perform new ops).1

/-- The cycle begins here: at the start, or just behind a reset. -/
def Begins (before : List Operation) : Prop :=
  before = [] ∨ ∃ earlier, before = earlier ++ [.reset]

/-- What a run from the start does, and what comes after it. -/
structure Regular (ops : List Operation) : Prop where
  /-- As long as no reset comes, the turns from the beginning of a cycle on take the places of
  the cycle one after the other. -/
  in_order : Begins ops → ∀ cycle, .reset ∉ cycle → ∀ (k : Nat) turn,
    ((after ops).turnsFrom cycle)[k]? = some turn → turn.job.index = k % 5
  /-- Each turn comes an interval after every one before it. -/
  spaced : (new.turnsFrom ops).Pairwise fun x y => x.time + 10 ≤ y.time
  /-- A poll hands nothing out just if it comes too early after some turn. -/
  idle_iff : ∀ now, ((after ops).perform (.poll now)).2 = none ↔
    ∃ x ∈ new.turnsFrom ops, now < x.time + 10

theorem turnsFrom_cons (r : Rotation) (op : Operation) (rest : List Operation) :
    r.turnsFrom (op :: rest) =
      (op.turn (r.perform op).2).toList ++ (r.perform op).1.turnsFrom rest :=
  writes_cons _ _ _ _ _

theorem perform_poll_none {r : Rotation} {now : Millis} (h : r.isDue now = false) :
    r.perform (.poll now) = (r, none) := by
  simp [perform, poll, h]

theorem perform_poll_some {r : Rotation} {now : Millis} (h : r.isDue now = true) :
    r.perform (.poll now) = (⟨(r.index + 1) % jobCount, some now⟩, some (.ofIndex r.index)) := by
  simp [perform, poll, h, next]

/-! ## Times -/

/-- The rotation keeps the time of the last of these turns, and they are an interval apart. -/
structure Timed (log : List Turn) (r : Rotation) : Prop where
  of_last : ∀ t, r.last = some t → ∃ x ∈ log, x.time = t
  le_last : ∀ x ∈ log, ∃ t, r.last = some t ∧ x.time ≤ t
  spaced : log.Pairwise fun x y => x.time + 10 ≤ y.time

namespace Timed

variable {log : List Turn} {r : Rotation}

theorem isDue_iff (h : Timed log r) (now : Nat) :
    r.isDue now = true ↔ ∀ x ∈ log, x.time + 10 ≤ now := by
  unfold isDue
  cases hl : r.last with
  | none =>
    simp only [true_iff]
    intro x hx
    obtain ⟨t, ht, -⟩ := h.le_last x hx
    rw [hl] at ht
    cases ht
  | some last =>
    have hdue : jobInterval ≤ Millis.since now last ↔ last + 10 ≤ now :=
      Millis.le_since_iff (by decide)
    simp only [decide_eq_true_eq]
    rw [hdue]
    constructor
    · intro hn x hx
      obtain ⟨t, ht, hle⟩ := h.le_last x hx
      rw [hl] at ht
      cases ht
      exact Nat.le_trans (Nat.add_le_add_right hle 10) hn
    · intro hn
      obtain ⟨x, hx, rfl⟩ := h.of_last last hl
      exact hn x hx

/-- A turn that is due is the latest, and an interval behind the others. -/
theorem due (h : Timed log r) {now : Millis} (hd : r.isDue now = true) (i : Nat) (j : Job) :
    Timed (log ++ [⟨now, j⟩]) ⟨i, some now⟩ := by
  have hall := (h.isDue_iff now).1 hd
  refine ⟨?_, ?_, ?_⟩
  · intro t ht
    cases ht
    exact ⟨⟨now, j⟩, by simp, rfl⟩
  · intro x hx
    refine ⟨now, rfl, ?_⟩
    rcases List.mem_append.1 hx with hx | hx
    · exact Nat.le_trans (Nat.le_add_right _ 10) (hall x hx)
    · obtain rfl := List.mem_singleton.1 hx
      exact Nat.le_refl now
  · refine List.pairwise_append.2 ⟨h.spaced, List.pairwise_singleton _ _, ?_⟩
    intro x hx y hy
    rw [List.mem_singleton.1 hy]
    exact hall x hx

/-- Whatever is done, a reset or a poll at any time. -/
theorem perform (h : Timed log r) (op : Operation) :
    Timed (log ++ (op.turn (r.perform op).2).toList) (r.perform op).1 := by
  cases op with
  | poll now =>
    cases hd : r.isDue now with
    | false =>
      rw [perform_poll_none hd]
      simpa [Operation.turn] using h
    | true =>
      rw [perform_poll_some hd]
      exact h.due hd _ _
  | reset =>
    have hlog : log ++ (Operation.turn .reset (r.perform .reset).2).toList = log :=
      List.append_nil log
    rw [hlog]
    exact ⟨h.of_last, h.le_last, h.spaced⟩

theorem run (h : Timed log r) (ops : List Operation) :
    Timed (log ++ r.turnsFrom ops) (GimbalLink.run Rotation.perform r ops).1 := by
  induction ops generalizing r log with
  | nil => simpa [turnsFrom, writes, GimbalLink.run] using h
  | cons op rest ih =>
    have hrest := ih (h.perform op)
    rw [turnsFrom_cons, ← List.append_assoc]
    exact hrest

end Timed

theorem timed_new : Timed [] new where
  of_last := by simp [new]
  le_last := by simp
  spaced := .nil

/-! ## The order of the jobs -/

/-- These are the turns since the cycle began, and the rotation is at the place behind them. -/
structure Ordered (cycle : List Turn) (r : Rotation) : Prop where
  index_eq : r.index = cycle.length % jobCount
  in_order : ∀ (k : Nat) turn, cycle[k]? = some turn → turn.job.index = k % jobCount

namespace Ordered

variable {cycle : List Turn} {r : Rotation}

theorem poll (h : Ordered cycle r) (now : Millis) :
    Ordered (cycle ++ (Operation.turn (.poll now) (r.perform (.poll now)).2).toList)
      (r.perform (.poll now)).1 := by
  cases hd : r.isDue now with
  | false =>
    rw [perform_poll_none hd]
    simpa [Operation.turn] using h
  | true =>
    rw [perform_poll_some hd, h.index_eq]
    simp only [Operation.turn, Option.toList_some]
    refine ⟨?_, ?_⟩
    · simp only [List.length_append, List.length_singleton, Nat.mod_add_mod]
    · intro k turn hk
      rw [List.getElem?_append] at hk
      split at hk
      · exact h.in_order k turn hk
      · -- Behind the turns before stands just the one that is handed out.
        obtain ⟨hlt, rfl⟩ := List.getElem?_eq_some_iff.1 hk
        have hkn : k = cycle.length := by simp at hlt; omega
        subst hkn
        simp [Job.index_ofIndex]

theorem run (h : Ordered cycle r) {ops : List Operation} (hr : .reset ∉ ops) :
    Ordered (cycle ++ r.turnsFrom ops) (GimbalLink.run Rotation.perform r ops).1 := by
  induction ops generalizing r cycle with
  | nil => simpa [turnsFrom, writes, GimbalLink.run] using h
  | cons op rest ih =>
    simp only [List.mem_cons, not_or] at hr
    obtain ⟨hop, hrest⟩ := hr
    cases op with
    | poll now =>
      have hi := ih (h.poll now) hrest
      rw [turnsFrom_cons, ← List.append_assoc]
      exact hi
    | reset => exact absurd rfl hop

end Ordered

theorem ordered_of_index (r : Rotation) (h : r.index = 0) : Ordered [] r where
  index_eq := h
  in_order := by simp

theorem index_of_begins {ops : List Operation} (h : Begins ops) : (after ops).index = 0 := by
  rcases h with rfl | ⟨earlier, rfl⟩
  · rfl
  · rw [after, run_append]
    rfl

/-! ## Runs -/

/-- The order and the times of the turns, for every run: the jobs go round from the start and
from every reset on, each turn comes an interval after the last one, reset or not, and nothing
else makes a poll come to nothing. -/
theorem run_regular (ops : List Operation) : Regular ops := by
  have htimed : Timed (new.turnsFrom ops) (after ops) := timed_new.run ops
  refine ⟨?_, htimed.spaced, ?_⟩
  · intro hb cycle hr
    have hordered := (ordered_of_index _ (index_of_begins hb)).run hr
    rw [List.nil_append] at hordered
    exact hordered.in_order
  · intro now
    cases hd : (after ops).isDue now with
    | true =>
      have hall := (htimed.isDue_iff now).1 hd
      rw [perform_poll_some hd]
      simp only [reduceCtorEq, false_iff, not_exists, not_and, Nat.not_lt]
      exact hall
    | false =>
      have hnot := mt (htimed.isDue_iff now).2 (by simp [hd])
      rw [perform_poll_none hd]
      simpa using hnot

/-- A turn comes late, the clock goes back, and a reset comes within the interval. -/
example :
    (run perform new
      [.poll 1000, .poll 1037, .poll 20, .reset, .poll 1046, .poll 1047, .poll 1057]).2 =
      [some .broadcast, some .request, none, none, none, some .broadcast, some .request] := by
  decide

end Rotation

end GimbalLink
