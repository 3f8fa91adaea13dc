import GimbalLink.Proofs.Engine.Fields
import GimbalLink.Run
/-
  The engine that has given up.

  A disabled engine stays so, and it leaves its channel alone: not one of its operations
  writes to it, reads from it or takes anything out of it. What the far side does goes on as
  if the engine were not there, and that is how it is said here: the channel after a run is
  that of the run with the engine's own operations left out.

  What is proved:
    1. `perform_of_disabled`: what one operation leaves alone, and that it is silent.
    2. `outside_perform`, `outside_congr`: the engine's own operations do not touch what is
       outside, and the others see only what is outside.
    3. `run_of_disabled`: the law for runs, and that an engine without a channel is under
       it from its start.
-/
namespace GimbalLink

namespace Rig

/-- The operation is one of the surroundings, not one of the engine's own. -/
def Operation.isOutside : Operation → Bool
  | .tick | .setMode _ | .setExternal _ | .setInterest _ | .triggerCamera | .requestBanner
  | .sendHome | .sendTarget _ | .takeUpdate => false
  | _ => true

/-- Nothing was done on the channel, and nothing was said. -/
def Outcome.Silent : Outcome → Prop
  | .ticked report => report.actions = [] ∧ report.texts = []
  | .sent result => result = .error .unavailable
  | _ => True

/-- The link with its channel and all that works on it from the far side. -/
def outside (r : Rig) : Option Link × Registry Unit BusStatus × Port :=
  (r.engine.link, r.registry, r.idlePort)

variable {r s : Rig}

/-! ## One operation -/

theorem tick_of_disabled (h : r.engine.state = .disabled) : r.tick = (r, ⟨[], []⟩) := by
  simp only [tick, Engine.tick_of_disabled h]

theorem perform_tick_of_disabled (h : r.engine.state = .disabled) :
    r.perform .tick = (r, .ticked ⟨[], []⟩) := by
  simp only [perform, tick_of_disabled h]

theorem perform_setMode_of_disabled (h : r.engine.state = .disabled) (mode : Mode) :
    r.perform (.setMode mode) = (r, .done) := by
  have hs : ¬r.engine.state = .found := by
    rw [h]
    decide
  simp only [perform, onEngine, Engine.setMode, if_neg hs]

theorem setPort_pointer (r : Rig) (port : Port) :
    (r.setPort port).engine.pointer = r.engine.pointer := by
  unfold setPort
  split <;> rfl

theorem sendHome_of_disabled (h : r.engine.state = .disabled) :
    r.perform .sendHome = (r, .sent (.error .unavailable)) := by
  simp only [perform, Engine.sendHome, Engine.send_of_disabled h]

theorem sendTarget_of_disabled (h : r.engine.state = .disabled) (l : Location) :
    r.perform (.sendTarget l) = (r, .sent (.error .unavailable)) := by
  simp only [perform, Engine.sendTarget, Engine.send_of_disabled h]

/-- The mode and the target stay as they are, and nothing is sent or said. -/
theorem perform_of_disabled (h : r.engine.state = .disabled) (op : Operation) :
    (r.perform op).1.engine.pointer.mode = r.engine.pointer.mode ∧
      (r.perform op).1.engine.pointer.last = r.engine.pointer.last ∧ (r.perform op).2.Silent := by
  cases op with
  | tick =>
    rw [perform_tick_of_disabled h]
    exact ⟨rfl, rfl, rfl, rfl⟩
  | setMode mode =>
    rw [perform_setMode_of_disabled h]
    exact ⟨rfl, rfl, trivial⟩
  | sendHome =>
    rw [sendHome_of_disabled h]
    exact ⟨rfl, rfl, rfl⟩
  | sendTarget l =>
    rw [sendTarget_of_disabled h]
    exact ⟨rfl, rfl, rfl⟩
  | inject bs =>
    have hp := r.setPort_pointer (r.port.inject bs).1
    exact ⟨congrArg Pointer.mode hp, congrArg Pointer.last hp, trivial⟩
  | setLimit limit =>
    have hp := r.setPort_pointer (r.port.setLimit limit)
    exact ⟨congrArg Pointer.mode hp, congrArg Pointer.last hp, trivial⟩
  | takeTx room =>
    have hp := r.setPort_pointer (r.port.takeTx room).1
    exact ⟨congrArg Pointer.mode hp, congrArg Pointer.last hp, trivial⟩
  | publish node status =>
    obtain ⟨after, result, hp⟩ := publish_delivers r.registry node status
    simp only [perform, publish, hp]
    cases heardBy result <;> exact ⟨rfl, rfl, trivial⟩
  | _ => exact ⟨rfl, rfl, trivial⟩

theorem keeps_of_disabled (h : r.engine.state = .disabled) (op : Operation) :
    r.engine.Keeps (r.perform op).1.engine := by
  by_cases ho : op = .tick
  · rw [ho, perform_tick_of_disabled h]
    exact .refl r.engine
  · exact perform_keeps ho

/-- The engine's own operations do not touch what is outside. -/
theorem outside_perform (h : r.engine.state = .disabled) {op : Operation}
    (ho : op.isOutside = false) : (r.perform op).1.outside = r.outside := by
  cases op with
  | tick => rw [perform_tick_of_disabled h]
  | setMode mode => rw [perform_setMode_of_disabled h]
  | sendHome => rw [sendHome_of_disabled h]
  | sendTarget l => rw [sendTarget_of_disabled h]
  | setExternal a => rfl
  | setInterest l => rfl
  | triggerCamera => rfl
  | requestBanner => rfl
  | takeUpdate => rfl
  | _ => cases ho

/-- The others see only what is outside. -/
theorem outside_congr (h : r.outside = s.outside) {op : Operation} (ho : op.isOutside = true) :
    (r.perform op).1.outside = (s.perform op).1.outside := by
  obtain ⟨⟨link⟩, _, _, _, registry, idle⟩ := r
  obtain ⟨⟨_⟩, _, _, _, _, _⟩ := s
  simp only [outside, Prod.mk.injEq] at h
  obtain ⟨rfl, rfl, rfl⟩ := h
  cases op with
  | publish node status =>
    obtain ⟨after, result, hp⟩ := publish_delivers registry node status
    simp only [perform, publish, hp]
    cases heardBy result <;> rfl
  | inject bs => obtain _ | ⟨_ | _, _⟩ := link <;> rfl
  | setLimit limit => obtain _ | ⟨_ | _, _⟩ := link <;> rfl
  | takeTx room => obtain _ | ⟨_ | _, _⟩ := link <;> rfl
  | advance d => rfl
  | setClock now => rfl
  | setVehicle v => rfl
  | setConnected connected => rfl
  | setReady ready => rfl
  | setAccepting accepting => rfl
  | takeSent => rfl
  | _ => cases ho

/-! ## Runs -/

/-- What a run leaves as it was in a rig whose engine has given up. -/
structure Dormant (r : Rig) (ops : List Operation) : Prop where
  state_eq : (run perform r ops).1.engine.state = .disabled
  kind_eq : (run perform r ops).1.engine.kind = none
  mode_eq : (run perform r ops).1.engine.pointer.mode = r.engine.pointer.mode
  target_eq : (run perform r ops).1.engine.pointer.last = r.engine.pointer.last
  version_eq : (run perform r ops).1.engine.version = r.engine.version
  orientation_eq :
    (run perform r ops).1.engine.telemetry.orientation = r.engine.telemetry.orientation
  /-- No tick does or says anything, and every location is refused. -/
  silent : ∀ outcome ∈ (run perform r ops).2, outcome.Silent
  /-- The channel is as if nothing had been asked of the engine. -/
  link_eq : (run perform r ops).1.engine.link =
    (run perform r (ops.filter Operation.isOutside)).1.engine.link

theorem run_outside (h : r.engine.state = .disabled) (hs : r.outside = s.outside)
    (ops : List Operation) :
    (run perform r ops).1.outside =
      (run perform s (ops.filter Operation.isOutside)).1.outside := by
  induction ops generalizing r s with
  | nil => exact hs
  | cons op rest ih =>
    have hd : (r.perform op).1.engine.state = .disabled := (keeps_of_disabled h op).state_eq.trans h
    cases ho : op.isOutside with
    | true =>
      rw [List.filter_cons_of_pos ho]
      exact ih hd (outside_congr hs ho)
    | false =>
      rw [List.filter_cons_of_neg (by rw [ho]; decide)]
      exact ih hd ((outside_perform h ho).trans hs)

theorem dormant_of_disabled (h : r.engine.state = .disabled) (ops : List Operation) :
    r.Dormant ops := by
  induction ops generalizing r with
  | nil =>
    exact ⟨h, if_pos h, rfl, rfl, rfl, rfl, fun _ ho => absurd ho List.not_mem_nil, rfl⟩
  | cons op rest ih =>
    have hk := keeps_of_disabled h op
    obtain ⟨hmode, htarget, hsilent⟩ := perform_of_disabled h op
    have hd := hk.state_eq.trans h
    have hi := ih hd
    have hlink := congrArg Prod.fst (run_outside h rfl (op :: rest))
    refine ⟨hi.state_eq, hi.kind_eq, hi.mode_eq.trans hmode, hi.target_eq.trans htarget,
      hi.version_eq.trans hk.version_eq, hi.orientation_eq.trans hk.orientation_eq, ?_, hlink⟩
    intro outcome ho
    obtain rfl | ho := List.mem_cons.1 ho
    · exact hsilent
    · exact hi.silent outcome ho

/-- Giving up is for good, and silent. An engine without a channel has given up from its
start. -/
theorem run_dormant :
    (∀ settings vehicle connected ready start,
      (new none settings vehicle connected ready start).1.engine.state = .disabled) ∧
    ∀ r : Rig, r.engine.state = .disabled → ∀ ops, r.Dormant ops :=
  ⟨fun _ _ _ _ _ => rfl, fun _ h ops => dormant_of_disabled h ops⟩

/-- A search on the serial channel that has come to its limit, with an answer on its way. -/
def givenUp : Rig :=
  (run perform (new (some .serial) { Settings.standard with searchLimit := 100 } quiet.vehicle true
    true 0).1 [.tick, .inject [0xfb, 0, 1], .advance 100, .tick]).1

theorem dormant_givenUp :
    givenUp.engine.state = .disabled ∧
      givenUp.Dormant [.sendHome, .inject [0x55], .tick, .setMode .external, .requestBanner, .tick,
        .takeTx 4] := by
  have h : givenUp.engine.state = .disabled := by decide
  exact ⟨h, run_dormant.2 givenUp h _⟩

end Rig

end GimbalLink
