import GimbalLink.Proofs.Pointing.History
/-
  Lost links, and the pulses that are sent.

  A pulse below the failsafe pulse on an assigned channel is not a stick of the pilot's:
  the link is lost. The aim that is handed out in such a cycle is neutral, but the aim that
  is kept holds the pulses as they were read. A later cycle that resolves nothing takes the
  kept aim, and by then the link may be back.

  What is proved:
    1. `fresh_live_iff`: a target resolved now shows a lost link only under the pilot's
       sticks with raw pulses, and only while the link is lost.
    2. `cycle_live_iff`: a cycle sends pulses of a lost link just if it replays the aim
       of a cycle with the link lost (`ReplaysLoss`).
    3. `run_live_iff`: so every pulse sent in a run is a live one just if no cycle of the
       run replays a loss. `lost_pulse_replayed` is a run with such a cycle.
-/
namespace GimbalLink

/-- The image of the failsafe pulse under the dead zone. -/
def liveFloor : UInt16 := 710

/-- A pulse that counts as received and shows that the link is lost. -/
def ShowsLoss (pulse : UInt16) : Prop := pulseFloor ≤ pulse ∧ pulse < failsafePulse

instance (pulse : UInt16) : Decidable (ShowsLoss pulse) :=
  inferInstanceAs (Decidable (_ ∧ _))

theorem liveFloor_le_deadZone_iff (pulse : UInt16) :
    liveFloor ≤ deadZone pulse ↔ ¬ShowsLoss pulse := by
  have hp := pulse.toNat_lt
  unfold deadZone ShowsLoss
  simp only [liveFloor, failsafePulse, pulseCentre, pulseFloor, deadBand,
    UInt16.lt_iff_toNat_lt, UInt16.le_iff_toNat_le]
  split
  · next h1 =>
    have h1 : pulse.toNat < 10 := h1
    show 710 ≤ 1500 ↔ ¬(10 ≤ pulse.toNat ∧ pulse.toNat < 700)
    omega
  · next h1 =>
    have h1 : ¬pulse.toNat < 10 := h1
    split
    · next h2 =>
      have h2 : pulse.toNat < 1490 := h2
      rw [UInt16.toNat_add]
      show 710 ≤ (pulse.toNat + 10) % 2 ^ 16 ↔ ¬(10 ≤ pulse.toNat ∧ pulse.toNat < 700)
      omega
    · next h2 =>
      have h2 : ¬pulse.toNat < 1490 := h2
      split
      · next h3 =>
        have h3 : 1510 < pulse.toNat := h3
        rw [UInt16.toNat_sub]
        show 710 ≤ (2 ^ 16 - 10 + pulse.toNat) % 2 ^ 16 ↔
          ¬(10 ≤ pulse.toNat ∧ pulse.toNat < 700)
        omega
      · show 710 ≤ 1500 ↔ ¬(10 ≤ pulse.toNat ∧ pulse.toNat < 700)
        omega

/-- Pulses, if they are sent, are those of a live link, or they recentre the gimbal. -/
def Command.Live (c : Command) : Prop :=
  ∀ pitch roll yaw, c = .setPulses pitch roll yaw →
    c = .recenter ∨ (liveFloor ≤ pitch ∧ liveFloor ≤ roll ∧ liveFloor ≤ yaw)

namespace Target

/-- No pulse of the target shows that the link is lost. -/
def Live : Target → Prop
  | angles _ => True
  | pulses p => ¬ShowsLoss p.pitch ∧ ¬ShowsLoss p.roll ∧ ¬ShowsLoss p.yaw

theorem live_neutral (t : Target) : t.neutral.Live := by
  cases t with
  | angles a => trivial
  | pulses p => exact ⟨by decide, by decide, by decide⟩

theorem live_toCommand_iff (t : Target) : t.toCommand.Live ↔ t.Live := by
  have hr := t.toCommand_ne_recenter
  cases t with
  | angles a => exact ⟨fun _ => trivial, fun _ pitch roll yaw h => Command.noConfusion h⟩
  | pulses p =>
    simp only [Live, ← liveFloor_le_deadZone_iff]
    constructor
    · intro h
      exact (h _ _ _ rfl).resolve_left hr
    · intro h pitch roll yaw he
      obtain ⟨rfl, rfl, rfl⟩ := Command.setPulses.inj he
      exact .inr h

end Target

namespace Vehicle

/-- A pulse on an assigned channel shows that the link is lost. -/
def ReadsLoss (v : Vehicle) (a : Assignments) : Prop :=
  ∃ i ∈ a.toList, ShowsLoss (v.pulse i)

theorem failsafe_of_readsLoss {v : Vehicle} {a : Assignments} (h : v.ReadsLoss a) :
    v.failsafe a = true := by
  obtain ⟨i, hi, hl⟩ := h
  refine List.any_eq_true.2 ⟨i, hi, ?_⟩
  unfold pulse at hl
  cases hv : v.assigned i with
  | none =>
    rw [hv] at hl
    exact absurd hl (by decide)
  | some pulse =>
    rw [hv] at hl
    exact decide_eq_true hl.2

end Vehicle

namespace Pointer

variable {s : Settings} {p : Pointer} {v : Vehicle}

theorem manualTarget_live_iff (s : Settings) (v : Vehicle) :
    (manualTarget s v).Live ↔
      ¬(s.features.contains Features.rawPulses = true ∧ v.ReadsLoss s.assignments) := by
  unfold manualTarget
  by_cases hr : s.features.contains Features.rawPulses = true
  · rw [if_pos hr]
    simp [Target.Live, hr, Vehicle.ReadsLoss, Assignments.toList]
  · rw [if_neg hr]
    exact ⟨fun _ h => hr h.1, fun _ => trivial⟩

/-- A target that is not under the pilot's sticks is one of angles. -/
theorem fresh_angles {target : Target} (h : p.freshTarget s v = some target)
    (hm : p.mode ≠ .manual) : ∃ a, target = .angles a := by
  unfold freshTarget at h
  cases hp : p.mode with
  | manual => exact absurd hp hm
  | position =>
    rw [hp] at h
    change p.positionTarget v = some target at h
    unfold positionTarget at h
    split at h
    · obtain ⟨here, -, h⟩ := Option.bind_eq_some_iff.1 h
      obtain ⟨there, -, h⟩ := Option.bind_eq_some_iff.1 h
      exact ⟨_, (Option.some.inj h).symm⟩
    · cases h
  | unsupported n =>
    rw [hp] at h
    cases h
  | _ =>
    rw [hp] at h
    exact ⟨_, (Option.some.inj h).symm⟩

theorem fresh_live_iff {target : Target} (h : p.freshTarget s v = some target) :
    target.Live ↔
      ¬(p.mode = .manual ∧ s.features.contains Features.rawPulses = true ∧
        v.ReadsLoss s.assignments) := by
  by_cases hm : p.mode = .manual
  · have ht : manualTarget s v = target := by
      rw [freshTarget, hm] at h
      exact Option.some.inj h
    rw [← ht, manualTarget_live_iff]
    simp only [hm, true_and]
  · obtain ⟨a, rfl⟩ := fresh_angles h hm
    exact ⟨fun _ hl => hm hl.1, fun _ => trivial⟩

theorem fresh_live {target : Target} (h : p.freshTarget s v = some target)
    (hf : v.failsafe s.assignments = false) : target.Live := by
  refine (fresh_live_iff h).2 ?_
  rintro ⟨-, -, hl⟩
  rw [Vehicle.failsafe_of_readsLoss hl] at hf
  cases hf

/-! ## One cycle -/

/-- The pointer after a run from the start. -/
def after (s : Settings) (ops : List Operation) : Pointer := (run (perform s) (new s) ops).1

/-- A cycle with this vehicle after this run replays the aim of a lost link: nothing can be
resolved now and the link is back, but the last vehicle for which the mode gave a target
read a loss, under the pilot's sticks with raw pulses. -/
structure ReplaysLoss (s : Settings) (ops : List Operation) (v : Vehicle) : Prop where
  fresh_eq : (after s ops).freshTarget s v = none
  link_back : v.failsafe s.assignments = false
  raw : s.features.contains Features.rawPulses = true
  source : ∃ x, (sights s (new s) ops).getLast? = some x ∧ x.aim.mode = .manual ∧
    x.vehicle.ReadsLoss s.assignments

theorem after_last (s : Settings) (ops : List Operation) :
    (after s ops).last = (sights s (new s) ops).getLast?.map Sighting.aim := by
  rw [after, run_last]
  exact Option.or_none

/-- The command of a cycle is that of the kept aim, as it is handed out. -/
theorem cycle_command_iff {aim : Aim} {c : Command} :
    (p.cycle s v).2 = some (aim, some c) ↔
      ∃ old, p.kept s v = some old ∧ guarded s v old = aim ∧
        (Pointer.commandFor { p with last := some old } aim).2 = some c := by
  simp only [cycle, resolve]
  cases hk : p.kept s v with
  | none =>
    constructor
    · intro h
      cases h
    · rintro ⟨_, he, -, -⟩
      cases he
  | some old =>
    constructor
    · intro h
      obtain ⟨ha, hc⟩ := Prod.mk.inj (Option.some.inj h)
      exact ⟨old, rfl, ha, ha ▸ hc⟩
    · rintro ⟨_, he, rfl, hc⟩
      obtain rfl := Option.some.inj he
      exact congrArg (fun c => some (guarded s v old, c)) hc

/-- What is sent for an aim is its target's command, or it recentres the gimbal. -/
theorem commandFor_cases {aim : Aim} {c : Command} (h : (p.commandFor aim).2 = some c) :
    c = .recenter ∨ c = aim.target.toCommand := by
  unfold commandFor at h
  by_cases hf : aim.mode.isFixed = true
  · rw [if_pos hf] at h
    split at h
    · cases h
    · exact .inl (Option.some.inj h).symm
  · rw [if_neg hf] at h
    exact .inr (Option.some.inj h).symm

theorem live_recenter : Command.recenter.Live := fun _ _ _ _ => .inl rfl

/-- The cycle after a run sends pulses of a lost link just if it replays a loss. -/
theorem cycle_live_iff (s : Settings) (ops : List Operation) (v : Vehicle) :
    (∀ aim c, ((after s ops).cycle s v).2 = some (aim, some c) → c.Live) ↔
      ¬ReplaysLoss s ops v := by
  constructor
  · intro live replays
    obtain ⟨x, hx, hm, hl⟩ := replays.source
    obtain ⟨q, hq, ht⟩ := of_mem_sights (List.mem_of_getLast? hx)
    -- Nothing fresh comes between: the aim sighted then is the one sent now.
    have dead : ¬x.aim.target.Live := fun h =>
      (fresh_live_iff ht).1 h ⟨hq.trans hm, replays.raw, hl⟩
    have hk : (after s ops).kept s v = some x.aim := by
      rw [kept_eq, replays.fresh_eq, after_last, hx]
      rfl
    have hg : guarded s v x.aim = x.aim := by
      rw [guarded, replays.link_back]
      rfl
    have hc := live x.aim x.aim.target.toCommand
      (cycle_command_iff.2 ⟨x.aim, hk, hg, by rw [commandFor, hm]; rfl⟩)
    exact dead (x.aim.target.live_toCommand_iff.1 hc)
  · intro hr aim c hc
    obtain ⟨old, hk, rfl, hc⟩ := cycle_command_iff.1 hc
    obtain rfl | rfl := commandFor_cases hc
    · exact live_recenter
    refine (Target.live_toCommand_iff _).2 ?_
    cases hf : v.failsafe s.assignments with
    | true =>
      rw [guarded, if_pos hf]
      exact Target.live_neutral _
    | false =>
      rw [guarded, hf]
      -- The link is not lost now, so only an old target can show a loss.
      cases hn : (after s ops).freshTarget s v with
      | some target =>
        rw [kept_eq, hn] at hk
        obtain rfl := Option.some.inj hk
        exact fresh_live hn hf
      | none =>
        rw [kept_eq, hn, Option.map_none, Option.none_or, after_last] at hk
        obtain ⟨x, hx, rfl⟩ := Option.map_eq_some_iff.1 hk
        obtain ⟨q, hq, ht⟩ := of_mem_sights (List.mem_of_getLast? hx)
        refine (fresh_live_iff ht).2 ?_
        rintro ⟨hm, raw, hl⟩
        exact hr ⟨hn, hf, raw, x, hx, hq.symm.trans hm, hl⟩

/-! ## Runs -/

/-- Every pulse that the cycles of a run send is a live one just if none replays a loss. -/
theorem run_live_iff (s : Settings) (ops : List Operation) :
    (∀ aim c, .cycle (some (aim, some c)) ∈ (run (perform s) (new s) ops).2 → c.Live) ↔
      ∀ before v rest, ops = before ++ .cycle v :: rest → ¬ReplaysLoss s before v := by
  constructor
  · rintro live before v rest rfl
    refine (cycle_live_iff s before v).1 fun aim c hc => live aim c ?_
    exact mem_run_iff.2 ⟨before, .cycle v, rest, rfl, congrArg Outcome.cycle hc⟩
  · intro h aim c hm
    obtain ⟨before, op, rest, rfl, ho⟩ := mem_run_iff.1 hm
    cases op with
    | cycle v =>
      exact (cycle_live_iff s before v).2 (h before v rest rfl) aim c (Outcome.cycle.inj ho)
    | _ => cases ho

/-- Raw pulses under the pilot's sticks. -/
def rawSticks : Settings :=
  { Settings.standard with
    defaultMode := .manual, assignments := ⟨1, 2, 3⟩, features := Features.rawPulses }

/-- A vehicle without a fix that receives these three pulses. -/
def receiving (roll tilt pan : UInt16) : Vehicle where
  channels := [some roll, some tilt, some pan]
  stabilized := .zero
  fix := .none
  location := none
  attitude := default
  velocity := none
  healthy := true
  initialised := true
  horizontalVelocity := false
  armed := false

/-- The link is lost under the pilot's sticks, and back when the mode points at a place. -/
def lossAndReturn : List Operation :=
  [.cycle (receiving 1500 650 1500), .setMode .position, .cycle (receiving 1500 1500 1500)]

/-- While the link is lost the centre is sent; once it is back, the lost pulse is. -/
theorem lost_pulse_replayed :
    let outcomes := (run (perform rawSticks) (new rawSticks) lossAndReturn).2
    outcomes =
      [.cycle (some (⟨.manual, .pulses .centre⟩, some (.setPulses 1500 1500 1500))),
        .done,
        .cycle (some (⟨.manual, .pulses ⟨650, 1500, 1500⟩⟩, some (.setPulses 660 1500 1500)))] ∧
    ¬∀ aim c, .cycle (some (aim, some c)) ∈ outcomes → c.Live := by
  intro outcomes
  refine ⟨rfl, fun live => ?_⟩
  have hm : .cycle (some (⟨.manual, .pulses ⟨650, 1500, 1500⟩⟩,
      some (.setPulses 660 1500 1500))) ∈ outcomes := .tail _ (.tail _ (.head _))
  have hl := live _ _ hm _ _ _ rfl
  revert hl
  decide

end Pointer

end GimbalLink
