import GimbalLink.Proofs.Pointing.Failsafe
import GimbalLink.Proofs.Pointing.Recentre
/-
  The override of a lost link.

  While an assigned channel shows a pulse that no stick gives, the pilot's link is lost, and
  whatever the mode is, the aim that is handed out is a neutral one. To see that nothing else
  is touched, a pointer is compared with one that does not mind the link (`resolveUnguarded`,
  `performUnguarded`): it takes the fresh target, or else the last aim, and hands it out as it
  is.

  What is proved:
    1. `Vehicle.failsafe_iff`: the pulses that are heard on assigned channels alone tell
       whether the link is lost.
    2. `atRest_commandFor_neutral`: for a neutral aim nothing is sent but what levels, centres
       or recentres the gimbal.
    3. `resolve_overridden`: a lost link makes the aim neutral, and changes nothing else.
    4. `run_performUnguarded`: so it leaves no trace in the pointer, whatever the run.
-/
namespace GimbalLink

namespace Vehicle

/-- A pulse is received on a channel that is assigned. -/
def Hears (v : Vehicle) (a : Assignments) (pulse : UInt16) : Prop :=
  ∃ i : UInt8, (i = a.roll ∨ i = a.tilt ∨ i = a.pan) ∧ i ≠ 0 ∧
    v.channel (i.toNat - 1) = some pulse

/-- An assigned channel shows that the pilot's link is lost. -/
def LinkLost (v : Vehicle) (a : Assignments) : Prop :=
  ∃ pulse, v.Hears a pulse ∧ pulse < failsafePulse

theorem assigned_eq_some_iff {v : Vehicle} {i : UInt8} {pulse : UInt16} :
    v.assigned i = some pulse ↔ i ≠ 0 ∧ v.channel (i.toNat - 1) = some pulse := by
  unfold assigned
  split
  · next h => exact ⟨nofun, fun hp => absurd h hp.1⟩
  · next h => exact ⟨fun hp => ⟨h, hp⟩, fun hp => hp.2⟩

theorem failsafe_iff (v : Vehicle) (a : Assignments) :
    v.failsafe a = true ↔ v.LinkLost a := by
  have hmem (i : UInt8) : i ∈ a.toList ↔ i = a.roll ∨ i = a.tilt ∨ i = a.pan := by
    simp only [Assignments.toList, List.mem_cons, List.not_mem_nil, or_false]
    exact or_left_comm
  rw [failsafe, List.any_eq_true]
  constructor
  · rintro ⟨i, hi, hany⟩
    obtain ⟨pulse, hp, hlt⟩ := (Option.any_eq_true _ _).1 hany
    obtain ⟨hz, hc⟩ := assigned_eq_some_iff.1 hp
    exact ⟨pulse, ⟨i, (hmem i).1 hi, hz, hc⟩, of_decide_eq_true hlt⟩
  · rintro ⟨pulse, ⟨i, hi, hz, hc⟩, hlt⟩
    refine ⟨i, (hmem i).2 hi, (Option.any_eq_true _ _).2 ⟨pulse, ?_, decide_eq_true hlt⟩⟩
    exact assigned_eq_some_iff.2 ⟨hz, hc⟩

/-- Channels that are not assigned, or not received, do not count. -/
theorem failsafe_congr {v v' : Vehicle} {a : Assignments}
    (h : ∀ pulse, v'.Hears a pulse ↔ v.Hears a pulse) : v'.failsafe a = v.failsafe a := by
  rw [Bool.eq_iff_iff, failsafe_iff, failsafe_iff]
  exact exists_congr fun pulse => and_congr_left' (h pulse)

end Vehicle

/-- The same mode, with the neutral target of the same kind. -/
def Aim.neutral (aim : Aim) : Aim := { aim with target := aim.target.neutral }

/-- Nothing is sent, or what brings the gimbal to rest. -/
inductive AtRest : Option Command → Prop where
  | silent : AtRest none
  | recentred : AtRest (some .recenter)
  /-- Level, with zeros of either sign. -/
  | level {pitch roll yaw : Binary32} (hp : pitch = .zero ∨ pitch = .negativeZero)
    (hr : roll = .zero ∨ roll = .negativeZero) (hy : yaw = .zero ∨ yaw = .negativeZero) :
    AtRest (some (.setAngles pitch roll yaw 0 0))
  | centred : AtRest (some (.setPulses 1500 1500 1500))

theorem atRest_toCommand_neutral (t : Target) : AtRest (some t.neutral.toCommand) := by
  cases t with
  | angles a => exact .level (.inr (by decide)) (.inl rfl) (.inr (by decide))
  | pulses p =>
    have hz : deadZone pulseCentre = 1500 := by decide
    simp only [Target.neutral, Target.toCommand, Pulses.centre, hz]
    exact .centred

namespace Pointer

variable {s : Settings} {p : Pointer} {v : Vehicle}

theorem atRest_commandFor_neutral (p : Pointer) (aim : Aim) :
    AtRest (p.commandFor aim.neutral).2 := by
  cases h : (p.commandFor aim.neutral).2 with
  | none => exact .silent
  | some c =>
    obtain rfl | rfl := commandFor_cases h
    · exact .recentred
    · exact atRest_toCommand_neutral aim.target

/-! ## Without the override -/

/-- The aim of a cycle if the link is not minded: the fresh target is kept and handed out, or
else the last aim is handed out again. -/
def resolveUnguarded (p : Pointer) (s : Settings) (v : Vehicle) : Pointer × Option Aim :=
  match p.freshTarget s v with
  | some target => ({ p with last := some ⟨p.mode, target⟩ }, some ⟨p.mode, target⟩)
  | none => (p, p.last)

/-- One use, if the link is not minded. -/
def performUnguarded (s : Settings) (p : Pointer) : Operation → Pointer × Outcome
  | .resolve v =>
    let (p, aim) := p.resolveUnguarded s v
    (p, .aim aim)
  | .cycle v =>
    match p.resolveUnguarded s v with
    | (p, none) => (p, .cycle none)
    | (p, some aim) =>
      let (p, command) := p.commandFor aim
      (p, .cycle (some (aim, command)))
  | op => perform s p op

theorem resolveUnguarded_eq (p : Pointer) (s : Settings) (v : Vehicle) :
    p.resolveUnguarded s v = ({ p with last := p.kept s v }, p.kept s v) := by
  unfold resolveUnguarded kept
  cases p.freshTarget s v <;> rfl

theorem resolve_eq (p : Pointer) (s : Settings) (v : Vehicle) :
    p.resolve s v =
      ((p.resolveUnguarded s v).1, (p.resolveUnguarded s v).2.map (guarded s v)) := by
  rw [resolveUnguarded_eq]
  rfl

theorem guarded_of_failsafe (h : v.failsafe s.assignments = true) :
    guarded s v = Aim.neutral := funext fun _ => if_pos h

theorem guarded_of_not_failsafe (h : ¬v.failsafe s.assignments = true) : guarded s v = id :=
  funext fun _ => if_neg h

/-- The failsafe overrides every mode at once, for every pointer, settings and vehicle. While
the link is lost, the pointer is left as without the override, and the aim is the one without
it but for its target, which is the neutral one of its kind; and whichever pointer is asked for
the command, it brings the gimbal to rest or sends nothing. While the link is not lost, there
is no override; and only what is heard on assigned channels tells. -/
theorem resolve_overridden (p : Pointer) (s : Settings) (v : Vehicle) :
    (v.LinkLost s.assignments →
      (p.resolve s v).1 = (p.resolveUnguarded s v).1 ∧
      (p.resolve s v).2 = (p.resolveUnguarded s v).2.map Aim.neutral ∧
      ∀ aim, (p.resolve s v).2 = some aim → ∀ q : Pointer, AtRest (q.commandFor aim).2) ∧
    (¬v.LinkLost s.assignments → p.resolve s v = p.resolveUnguarded s v) ∧
    ∀ v' : Vehicle,
      (∀ pulse, v'.Hears s.assignments pulse ↔ v.Hears s.assignments pulse) →
      v'.failsafe s.assignments = v.failsafe s.assignments := by
  have he := p.resolve_eq s v
  refine ⟨fun h => ?_, fun h => ?_, fun v' => Vehicle.failsafe_congr⟩
  · rw [guarded_of_failsafe ((v.failsafe_iff _).2 h)] at he
    rw [he]
    refine ⟨rfl, rfl, fun aim ha q => ?_⟩
    obtain ⟨old, -, rfl⟩ := Option.map_eq_some_iff.1 ha
    exact q.atRest_commandFor_neutral old
  · rw [guarded_of_not_failsafe (mt (v.failsafe_iff _).1 h), Option.map_id] at he
    exact he

/-- Raw pulses were sent, and the mode has turned to a place; now there is no fix, and the link
is lost. The aim is centred, and the pulses are kept. -/
example :
    let s := { Settings.standard with assignments := ⟨1, 2, 3⟩ }
    let p := { new s with mode := .position, last := some ⟨.manual, .pulses ⟨900, 1500, 2000⟩⟩ }
    let v : Vehicle := ⟨[some 1500, some 650, some 1500], .zero, .none, none, default, none, true,
      true, false, false⟩
    p.resolve s v = (p, some ⟨.manual, .pulses .centre⟩) := by
  decide

/-! ## Runs -/

/-- The override keeps the mode of the aim, and the mode is all that asking for a command
remembers. -/
theorem perform_fst (s : Settings) (p : Pointer) (op : Operation) :
    (perform s p op).1 = (performUnguarded s p op).1 := by
  cases op with
  | resolve v =>
    simp only [perform, performUnguarded, resolve_eq]
  | cycle v =>
    simp only [perform, performUnguarded, cycle_eq, resolveUnguarded_eq]
    cases p.kept s v <;> rfl
  | _ => rfl

/-- A link that is lost now and then leaves a pointer as if it never was. -/
theorem run_performUnguarded (s : Settings) (p : Pointer) (ops : List Operation) :
    (run (perform s) p ops).1 = (run (performUnguarded s) p ops).1 := by
  induction ops generalizing p with
  | nil => rfl
  | cons op rest ih =>
    calc (run (perform s) p (op :: rest)).1
        = (run (perform s) (perform s p op).1 rest).1 := rfl
      _ = (run (performUnguarded s) (performUnguarded s p op).1 rest).1 := by
        rw [ih, perform_fst]
      _ = (run (performUnguarded s) p (op :: rest)).1 := rfl

end Pointer

end GimbalLink
