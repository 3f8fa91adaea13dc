import GimbalLink.Proofs.Pointing.History
/-
  Recentring, over whole runs.

  A fixed mode recentres the gimbal once, when the aims that are sent come to it, and sends
  nothing while they stay with it. Three things move here, each at a moment of its own:
  the active mode with `setMode`, the kept aim with a vehicle that the mode has a target
  for, and the mode sent last with the command. So what a cycle sends is told by three
  histories, and none of them asks the pointer: which mode was set last (`activeMode`),
  which modes had a target when a vehicle was looked at (`resolvedModes`), and for which
  modes a command was asked (`handedModes`).

  What is proved:
    1. `mode_after`, `interest_after`, `sentMode_after`: the pointer after a run holds what
       the histories say.
    2. `freshTarget_isSome`: whether a mode has a target depends on its kind, and under
       `position` on the fix and the two places.
    3. `run_obeys_recentring`: every cycle of a run obeys the law, `Recentring`.
-/
namespace GimbalLink

namespace Pointer

/-! ## Histories -/

/-- The mode that an operation sets. -/
def Operation.mode? : Operation → Option Mode
  | .setMode mode => some mode
  | _ => none

/-- The place that an operation sets, in the form in which it is kept. -/
def Operation.interest? : Operation → Option (Option Location)
  | .setInterest l => some (some l)
  | _ => none

/-- The mode of the aim for which an operation asked the command. -/
def Operation.handed : Operation → Outcome → Option Mode
  | .commandFor aim, _ => some aim.mode
  | .cycle _, .cycle (some (aim, _)) => some aim.mode
  | _, _ => none

/-- The mode that was set last, or else the default. -/
def activeMode (s : Settings) (ops : List Operation) : Mode :=
  (ops.filterMap Operation.mode?).getLast?.getD s.defaultMode

/-- The place that was set last, or else that of the settings. -/
def activeInterest (s : Settings) (ops : List Operation) : Option Location :=
  (ops.filterMap Operation.interest?).getLast?.getD s.interest

/-- Whether a mode has a target for a vehicle. -/
def resolvable (mode : Mode) (interest : Option Location) (v : Vehicle) : Bool :=
  match mode with
  | .position => v.fix.hasPosition && v.location.isSome && interest.isSome
  | .unsupported _ => false
  | _ => true

/-- The modes that had a target for the vehicle of an operation, in order, when these are
the mode and the place at first. -/
def resolvedModes : Mode → Option Location → List Operation → List Mode
  | _, _, [] => []
  | mode, interest, op :: rest =>
    let resolved := (op.vehicle?.filter (resolvable mode interest)).map fun _ => mode
    resolved.toList ++
      resolvedModes (op.mode?.getD mode) (op.interest?.getD interest) rest

/-- The modes of the aims for which a command was asked, in order. -/
def handedModes (s : Settings) (ops : List Operation) : List Mode :=
  writes Operation.handed ops (run (perform s) (new s) ops).2

/-- The mode of the last aim for which a command was asked, or else the default. -/
def handedMode (s : Settings) (ops : List Operation) : Mode :=
  (handedModes s ops).getLast?.getD s.defaultMode

/-- What a cycle may bring after some operations. -/
structure Recentring (s : Settings) (before : List Operation) (v : Vehicle)
    (result : Option (Aim × Option Command)) : Prop where
  /-- The aim is that of the active mode if it has a target now, or else that of the last
  mode that had one. -/
  mode_eq : result.map (fun r => r.1.mode) =
    if resolvable (activeMode s before) (activeInterest s before) v then
      some (activeMode s before)
    else (resolvedModes s.defaultMode s.interest before).getLast?
  /-- There is no aim only while no mode ever had a target. -/
  none_iff : result = none ↔
    resolvable (activeMode s before) (activeInterest s before) v = false ∧
      resolvedModes s.defaultMode s.interest before = []
  /-- A fixed mode recentres on entry. -/
  recenter_iff : ∀ aim command, result = some (aim, command) →
    (command = some .recenter ↔ aim.mode.isFixed = true ∧ aim.mode ≠ handedMode s before)
  /-- A fixed mode sends nothing while it is held. -/
  silent_iff : ∀ aim command, result = some (aim, command) →
    (command = none ↔ aim.mode.isFixed = true ∧ aim.mode = handedMode s before)
  /-- Any other mode sends its target. -/
  otherwise_eq : ∀ aim command, result = some (aim, command) → aim.mode.isFixed = false →
    command = some aim.target.toCommand
  /-- A target is never the recentre. -/
  target_ne : ∀ aim command, result = some (aim, command) → aim.target.toCommand ≠ .recenter

/-! ## The pointer and its histories -/

variable {s : Settings} {p : Pointer} {v : Vehicle}

theorem cycle_eq (p : Pointer) (s : Settings) (v : Vehicle) :
    p.cycle s v =
      match p.kept s v with
      | none => ({ p with last := none }, none)
      | some old =>
        ({ p with last := some old, sentMode := old.mode },
          some (guarded s v old, (p.commandFor (guarded s v old)).2)) := by
  have hm (aim : Aim) : (guarded s v aim).mode = aim.mode := by
    unfold guarded
    split <;> rfl
  simp only [cycle, resolve]
  cases p.kept s v with
  | none => rfl
  | some old => simp only [Option.map_some, commandFor, hm]

theorem perform_mode (s : Settings) (p : Pointer) (op : Operation) :
    (perform s p op).1.mode = op.mode?.getD p.mode := by
  cases op with
  | cycle v =>
    simp only [perform, cycle_eq]
    cases p.kept s v <;> rfl
  | _ => rfl

theorem perform_interest (s : Settings) (p : Pointer) (op : Operation) :
    (perform s p op).1.interest = op.interest?.getD p.interest := by
  cases op with
  | cycle v =>
    simp only [perform, cycle_eq]
    cases p.kept s v <;> rfl
  | _ => rfl

theorem perform_sentMode (s : Settings) (p : Pointer) (op : Operation) :
    (perform s p op).1.sentMode = (op.handed (perform s p op).2).getD p.sentMode := by
  cases op with
  | cycle v =>
    simp only [perform, cycle_eq]
    cases p.kept s v with
    | none => rfl
    | some old =>
      simp only [Operation.handed, guarded]
      split <;> rfl
  | _ => rfl

theorem mode_after (s : Settings) (ops : List Operation) :
    (run (perform s) (new s) ops).1.mode = activeMode s ops :=
  run_lastOperation Pointer.mode Operation.mode? (perform_mode s) (new s) ops

theorem interest_after (s : Settings) (ops : List Operation) :
    (run (perform s) (new s) ops).1.interest = activeInterest s ops :=
  run_lastOperation Pointer.interest Operation.interest? (perform_interest s) (new s) ops

theorem sentMode_after (s : Settings) (ops : List Operation) :
    (run (perform s) (new s) ops).1.sentMode = handedMode s ops :=
  run_lastWrite Pointer.sentMode Operation.handed (perform_sentMode s) (new s) ops

theorem freshTarget_isSome (p : Pointer) (s : Settings) (v : Vehicle) :
    (p.freshTarget s v).isSome = resolvable p.mode p.interest v := by
  unfold freshTarget resolvable
  cases p.mode with
  | position =>
    show (p.positionTarget v).isSome = _
    unfold positionTarget
    cases v.fix.hasPosition with
    | false => rfl
    | true =>
      cases v.location with
      | none => rfl
      | some here => cases p.interest <;> rfl
  | _ => rfl

theorem modes_of_sights (p : Pointer) (ops : List Operation) :
    (sights s p ops).map (fun x => x.aim.mode) = resolvedModes p.mode p.interest ops := by
  induction ops generalizing p with
  | nil => rfl
  | cons op rest ih =>
    have hsight : (sight s p op).map (fun x => x.aim.mode) =
        (op.vehicle?.filter (resolvable p.mode p.interest)).map fun _ => p.mode := by
      unfold sight
      cases op.vehicle? with
      | none => rfl
      | some v =>
        have hf := freshTarget_isSome p s v
        rw [Option.filter_some, Option.bind_some, ← hf]
        cases p.freshTarget s v <;> rfl
    rw [sights, List.map_append, ih, perform_mode, perform_interest, resolvedModes, ← hsight]
    cases sight s p op <;> rfl

theorem last_after (s : Settings) (ops : List Operation) :
    (run (perform s) (new s) ops).1.last.map Aim.mode =
      (resolvedModes s.defaultMode s.interest ops).getLast? := by
  have hs : (sights s (new s) ops).map (fun x => x.aim.mode) =
      resolvedModes s.defaultMode s.interest ops := modes_of_sights (new s) ops
  have hn : (new s).last = none := rfl
  rw [run_last, hn, Option.or_none, Option.map_map, ← hs, List.getLast?_map]
  rfl

/-! ## The law -/

theorem kept_mode (p : Pointer) (s : Settings) (v : Vehicle) :
    (p.kept s v).map Aim.mode =
      if resolvable p.mode p.interest v then some p.mode else p.last.map Aim.mode := by
  rw [kept_eq, ← freshTarget_isSome p s v]
  cases p.freshTarget s v <;> rfl

theorem commandFor_recenter_iff (p : Pointer) (aim : Aim) :
    (p.commandFor aim).2 = some .recenter ↔ aim.mode.isFixed = true ∧ aim.mode ≠ p.sentMode := by
  unfold commandFor
  by_cases hf : aim.mode.isFixed = true
  · rw [if_pos hf]
    by_cases he : aim.mode = p.sentMode
    · rw [if_pos he]
      exact ⟨nofun, fun h => absurd he h.2⟩
    · rw [if_neg he]
      exact ⟨fun _ => ⟨hf, he⟩, fun _ => rfl⟩
  · rw [if_neg hf]
    constructor
    · intro h
      exact absurd (Option.some.inj h) aim.target.toCommand_ne_recenter
    · intro h
      exact absurd h.1 hf

theorem commandFor_none_iff (p : Pointer) (aim : Aim) :
    (p.commandFor aim).2 = none ↔ aim.mode.isFixed = true ∧ aim.mode = p.sentMode := by
  unfold commandFor
  by_cases hf : aim.mode.isFixed = true
  · rw [if_pos hf]
    by_cases he : aim.mode = p.sentMode
    · rw [if_pos he]
      exact ⟨fun _ => ⟨hf, he⟩, fun _ => rfl⟩
    · rw [if_neg he]
      exact ⟨nofun, fun h => absurd h.2 he⟩
  · rw [if_neg hf]
    exact ⟨nofun, fun h => absurd h.1 hf⟩

theorem commandFor_of_not_fixed {aim : Aim} (h : aim.mode.isFixed = false) :
    (p.commandFor aim).2 = some aim.target.toCommand := by
  simp only [commandFor, h]
  rfl

/-- What is sent in a cycle is the command for the aim that it hands out. -/
theorem cycle_some {aim : Aim} {command : Option Command}
    (h : (p.cycle s v).2 = some (aim, command)) : command = (p.commandFor aim).2 := by
  rw [cycle_eq] at h
  cases hk : p.kept s v with
  | none =>
    rw [hk] at h
    cases h
  | some old =>
    rw [hk] at h
    obtain ⟨rfl, rfl⟩ := Prod.mk.inj (Option.some.inj h)
    rfl

theorem cycle_mode (p : Pointer) (s : Settings) (v : Vehicle) :
    (p.cycle s v).2.map (fun r => r.1.mode) =
      if resolvable p.mode p.interest v then some p.mode else p.last.map Aim.mode := by
  rw [← kept_mode p s v, cycle_eq]
  cases p.kept s v with
  | none => rfl
  | some old =>
    simp only [Option.map_some, guarded]
    split <;> rfl

/-- The cycle after some operations obeys the law. -/
theorem recentring_cycle (s : Settings) (before : List Operation) (v : Vehicle) :
    Recentring s before v ((run (perform s) (new s) before).1.cycle s v).2 := by
  have hmode := cycle_mode (run (perform s) (new s) before).1 s v
  rw [mode_after, interest_after, last_after] at hmode
  have hsent := sentMode_after s before
  generalize (run (perform s) (new s) before).1 = p at hmode hsent
  refine ⟨hmode, ?_, ?_, ?_, ?_, ?_⟩
  · rw [← Option.map_eq_none_iff (f := fun r : Aim × Option Command => r.1.mode), hmode]
    cases resolvable (activeMode s before) (activeInterest s before) v with
    | true => exact ⟨nofun, nofun⟩
    | false => simp
  · intro aim command h
    rw [cycle_some h, ← hsent]
    exact commandFor_recenter_iff p aim
  · intro aim command h
    rw [cycle_some h, ← hsent]
    exact commandFor_none_iff p aim
  · intro aim command h hf
    rw [cycle_some h]
    exact commandFor_of_not_fixed hf
  · intro aim command _
    exact aim.target.toCommand_ne_recenter

/-- Every cycle of a run obeys the law, whatever came before it and comes after. -/
theorem run_obeys_recentring (s : Settings) (before : List Operation) (v : Vehicle)
    (rest : List Operation) :
    ∃ result later,
      (run (perform s) (new s) (before ++ .cycle v :: rest)).2 =
        (run (perform s) (new s) before).2 ++ .cycle result :: later ∧
      Recentring s before v result := by
  rw [run_append]
  exact ⟨_, _, rfl, recentring_cycle s before v⟩

end Pointer

end GimbalLink
