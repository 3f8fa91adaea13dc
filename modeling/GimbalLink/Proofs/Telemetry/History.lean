import GimbalLink.Telemetry
import GimbalLink.Run
import Mathlib.Data.List.Induction
/-
  Telemetry as a function of its history.

  Two feeds write the telemetry, and an answer may tell the orientation, the armed state, both or
  neither. Each of the two keeps what was told of it last. The marks are independent of each
  other: one is raised by every orientation that is applied, the other by a change of the armed
  state and on request, and each is lowered where it is taken and nowhere else.

  What is proved:
    1. `run_mark`: a mark that some operations raise and others lower is up just if one was raised
       since it was last lowered (`Since`).
    2. `perform_eq`: what an operation makes of each of the four fields.
    3. `run_recorded`: what is read from the telemetry after any history, told by the history.
-/
namespace GimbalLink

/-! ## Marks -/

section Marks

variable {σ ι ο : Type}

/-- An operation of the history raised a mark, and none behind it lowered the mark. What raises it
may depend on what came before. -/
def Since (lowers : ι → Prop) (raises : List ι → ι → Prop) (history : List ι) : Prop :=
  ∃ before i rest, history = before ++ i :: rest ∧ raises before i ∧ ∀ j ∈ rest, ¬lowers j

variable {lowers : ι → Prop} {raises : List ι → ι → Prop}

theorem not_since_nil : ¬Since lowers raises [] := by
  rintro ⟨before, i, rest, hsplit, -⟩
  exact List.append_ne_nil_of_right_ne_nil before (List.cons_ne_nil i rest) hsplit.symm

theorem since_concat_iff (history : List ι) (i : ι) :
    Since lowers raises (history ++ [i]) ↔
      raises history i ∨ ¬lowers i ∧ Since lowers raises history := by
  constructor
  · rintro ⟨before, j, rest, hsplit, hraises, hrest⟩
    -- What raised the mark is the last operation, or an operation before it.
    rcases List.eq_nil_or_concat rest with rfl | ⟨front, k, rfl⟩
    · obtain ⟨rfl, hj⟩ := List.append_inj' hsplit rfl
      obtain rfl := List.singleton_inj.1 hj
      exact .inl hraises
    · rw [List.concat_eq_append] at hsplit hrest
      rw [← List.cons_append, ← List.append_assoc] at hsplit
      obtain ⟨rfl, hk⟩ := List.append_inj' hsplit rfl
      obtain rfl := List.singleton_inj.1 hk
      refine .inr ⟨hrest i (by simp), before, j, front, rfl, hraises, fun k hk => ?_⟩
      exact hrest k (List.mem_append_left _ hk)
  · rintro (hraises | ⟨hi, before, j, rest, rfl, hraises, hrest⟩)
    · exact ⟨history, i, [], rfl, hraises, nofun⟩
    · refine ⟨before, j, rest ++ [i], by simp, hraises, fun k hk => ?_⟩
      rcases List.mem_append.1 hk with hk | hk
      · exact hrest k hk
      · rw [List.mem_singleton.1 hk]
        exact hi

/-- A mark that is down at first, and that an operation leaves up just if it raises it or finds
it up and does not lower it. -/
theorem run_mark {perform : σ → ι → σ × ο} {s : σ} (mark : σ → Prop) (first : ¬mark s)
    (step : ∀ before i, mark (perform (run perform s before).1 i).1 ↔
      raises before i ∨ ¬lowers i ∧ mark (run perform s before).1)
    (history : List ι) : mark (run perform s history).1 ↔ Since lowers raises history := by
  induction history using List.reverseRecOn with
  | nil => exact iff_of_false first not_since_nil
  | append_singleton before i ih =>
    rw [since_concat_iff, ← ih, ← step, run_append]
    rfl

end Marks

namespace Telemetry

/-! ## Histories -/

/-- The telemetry after a history. -/
def after (history : List Operation) : Telemetry := (run perform new history).1

/-- The orientation that an operation applies, in the flight stack's sign convention and in
degrees. -/
def Operation.orientation? : Operation → Option Orientation
  | .live d =>
    if d.flags = LiveFields.request then d.attitude.map fun a => ⟨-a.pitch, a.roll, -a.yaw⟩
    else none
  | .bus s => some ⟨s.pitch.toDegrees, s.roll.toDegrees, s.yaw.toDegrees⟩
  | _ => none

/-- The armed state that an operation applies. -/
def Operation.armed? : Operation → Option Bool
  | .live d => if d.flags = LiveFields.request then d.status.map LiveStatus.isNormal else none
  | _ => none

/-- The orientation that was applied last. -/
def lastOrientation (history : List Operation) : Orientation :=
  (history.filterMap Operation.orientation?).getLast?.getD .zero

/-- The armed state that was applied last. -/
def lastArmed (history : List Operation) : Bool :=
  (history.filterMap Operation.armed?).getLast?.getD false

/-- The operation changes the armed state, or has it announced again. -/
def CallsForNotice (before : List Operation) (op : Operation) : Prop :=
  (after (before ++ [op])).armed ≠ (after before).armed ∨ op = .requestNotice

/-- What the telemetry tells after a history. -/
structure Recorded (history : List Operation) : Prop where
  orientation_eq : (after history).orientation = lastOrientation history
  armed_eq : (after history).armed = lastArmed history
  /-- An answer to the request of the cycle is applied. -/
  applied : ∀ d, d.flags = LiveFields.status.union LiveFields.attitude →
    ((after history).perform (.live d)).2 = .applied true
  /-- Any other leaves everything as it was. -/
  ignored : ∀ d, d.flags ≠ LiveFields.status.union LiveFields.attitude →
    (after history).perform (.live d) = (after history, .applied false)
  /-- The orientation is handed out if one was applied since it was last asked for. -/
  update_of_since : Since (· = .takeUpdate) (fun _ op => op.orientation?.isSome) history →
    ((after history).perform .takeUpdate).2 = .update (some (after history).orientation)
  no_update : ¬Since (· = .takeUpdate) (fun _ op => op.orientation?.isSome) history →
    ((after history).perform .takeUpdate).2 = .update none
  /-- A notice falls due with a change of the armed state, and on request. -/
  notice_iff : ∃ due, ((after history).perform .takeNotice).2 = .notice due ∧
    (due = true ↔ Since (· = .takeNotice) CallsForNotice history)

theorem after_concat (history : List Operation) (op : Operation) :
    after (history ++ [op]) = ((after history).perform op).1 := by
  rw [after, run_append]
  rfl

/-! ## One operation -/

/-- What an operation makes of each field. -/
theorem perform_eq (t : Telemetry) (op : Operation) :
    (t.perform op).1 =
      { orientation := op.orientation?.getD t.orientation
        fresh := op.orientation?.isSome || (op ≠ .takeUpdate && t.fresh)
        armed := op.armed?.getD t.armed
        notice := op.armed?.getD t.armed ≠ t.armed || op = .requestNotice ||
          (op ≠ .takeNotice && t.notice) } := by
  cases op with
  | live d =>
    obtain ⟨flags, attitude, status⟩ := d
    by_cases h : flags = LiveFields.request
    · subst h
      cases attitude <;> cases status <;>
        simp [perform, applyLive, setOrientation, setArmed_eq, Operation.orientation?,
          Operation.armed?, LiveAttitude.orientation]
    · simp [perform, applyLive, h, Operation.orientation?, Operation.armed?]
  | bus s => simp [perform, applyBus, setOrientation, BusStatus.orientation,
      Operation.orientation?, Operation.armed?]
  | takeUpdate => simp [perform, takeUpdate, Operation.orientation?, Operation.armed?]
  | requestNotice => simp [perform, requestNotice, Operation.orientation?, Operation.armed?]
  | takeNotice => simp [perform, takeNotice, Operation.orientation?, Operation.armed?]

/-! ## Runs -/

theorem orientation_after (history : List Operation) :
    (after history).orientation = lastOrientation history := by
  have step (t : Telemetry) (op : Operation) :
      (t.perform op).1.orientation = op.orientation?.getD t.orientation := by rw [perform_eq]
  exact run_lastOperation Telemetry.orientation Operation.orientation? step new history

theorem armed_after (history : List Operation) :
    (after history).armed = lastArmed history := by
  have step (t : Telemetry) (op : Operation) :
      (t.perform op).1.armed = op.armed?.getD t.armed := by rw [perform_eq]
  exact run_lastOperation Telemetry.armed Operation.armed? step new history

theorem fresh_after (history : List Operation) :
    (after history).fresh = true ↔
      Since (· = .takeUpdate) (fun _ op => op.orientation?.isSome) history := by
  refine run_mark (fun t : Telemetry => t.fresh = true) (by decide) (fun before op => ?_) history
  rw [perform_eq]
  simp

theorem notice_after (history : List Operation) :
    (after history).notice = true ↔ Since (· = .takeNotice) CallsForNotice history := by
  refine run_mark (fun t : Telemetry => t.notice = true) (by decide) (fun before op => ?_) history
  have hchanges : CallsForNotice before op ↔
      op.armed?.getD (after before).armed ≠ (after before).armed ∨ op = .requestNotice := by
    rw [CallsForNotice, after_concat, perform_eq]
  rw [hchanges, perform_eq]
  simp [after, or_assoc]

/-- Whatever was done with the telemetry, and in whatever order: it tells the orientation and the
armed state that were applied last, and hands out an orientation or a notice just if there has
been cause for it since the last time. -/
theorem run_recorded (history : List Operation) : Recorded history where
  orientation_eq := orientation_after history
  armed_eq := armed_after history
  applied d h := by
    have hr : d.flags = LiveFields.request := h
    simp only [perform, applyLive, if_pos hr]
  ignored d h := by
    have hr : d.flags ≠ LiveFields.request := h
    simp only [perform, applyLive, if_neg hr]
  update_of_since h := by
    simp only [perform, takeUpdate, (fresh_after history).2 h, if_true]
  no_update h := by
    have hf : (after history).fresh = false := Bool.eq_false_iff.2 (mt (fresh_after history).1 h)
    simp [perform, takeUpdate, hf]
  notice_iff := ⟨(after history).notice, rfl, notice_after history⟩

/-- Armed and disarmed again before anybody asks: there is one notice, and no orientation. -/
example :
    let status (state : UInt16) : Operation :=
      .live ⟨LiveFields.request, none, some ⟨state, 0, 0, 0, 0⟩⟩
    (run perform new [status 6, status 0, .takeNotice, .takeNotice, .takeUpdate]).2 =
      [.applied true, .applied true, .notice true, .notice false, .update none] := by
  decide

end Telemetry

end GimbalLink
