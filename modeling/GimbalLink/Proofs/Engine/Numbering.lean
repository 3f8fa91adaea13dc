import GimbalLink.Proofs.Engine.Backpressure
import GimbalLink.Proofs.Engine.LiveTelemetry
import GimbalLink.Proofs.Engine.Repertoire
import GimbalLink.Proofs.Message.CommandWire
import Mathlib.Data.List.Basic
/-
  The numbers and the times of the status broadcasts.

  The engine counts its status broadcasts in a byte, and the count goes up with every one that
  it tries to send, whether or not the channel takes it. Broadcasts are sent in a job of their
  own, so between two of them the rotation goes round once, and the clock has to pass the
  interval at each of its jobs. A clock that is set back only makes the engine wait.

  The log of a run has an entry for each broadcast that was to be sent (`Rig.statusLog`). That
  the log is numbered, and how far the rotation has come since each of its entries, is kept by
  every operation (`Rig.Numbered`).

  What is proved:
    1. `Rotation.Past.poll`, `Rotation.Past.cycle_le`: a cycle takes five intervals at least.
    2. `Rig.perform_counts`: what one operation does about the broadcast, on either channel.
    3. `Rig.Numbered.perform`, `Rig.numbered_run`: the log stays numbered.
    4. `Rig.statusNumbers_transmitted`: the numbers on the wire are those of the entries that
       the channel took.
    5. `Rig.run_numbering`: all of it together, for runs from the start.
-/
namespace GimbalLink

/-! ## The log -/

/-- A status broadcast that was to be sent. -/
structure StatusEntry where
  /-- What the clock showed. -/
  time : Millis
  sequence : UInt8
  /-- The channel took it. -/
  taken : Bool

/-- The entry for an attempt, if it was one to send a status broadcast. -/
def Attempt.statusEntry? (now : Millis) (a : Attempt) : Option StatusEntry :=
  match a.command with
  | .linkStatus status => some ⟨now, status.sequence, a.taken⟩
  | _ => none

/-- The entries for what a tick did. -/
def statusEntriesIn (now : Millis) (actions : List Action) : List StatusEntry :=
  (actions.filterMap Action.attempt?).filterMap (Attempt.statusEntry? now)

namespace Rig

/-- The entries for an operation. -/
def statusEntries (r : Rig) (op : Operation) : List StatusEntry :=
  (r.attempts op).filterMap (Attempt.statusEntry? r.clock.now)

/-- The entries for a run, in order. -/
def statusLog (r : Rig) : List Operation → List StatusEntry
  | [] => []
  | op :: rest => r.statusEntries op ++ (r.perform op).1.statusLog rest

end Rig

/-! ## Times -/

/-- How far the rotation has come since a broadcast at this time: from the place behind it on,
an interval for each job. -/
def Rotation.Past (r : Rotation) (time : Millis) : Prop :=
  ∃ last, r.last = some last ∧ time + jobInterval * ((r.index + 4) % jobCount) ≤ last

namespace Rotation

variable {r : Rotation} {time now : Nat}

theorem Past.interval_le (h : r.Past time) (hd : r.isDue now = true) :
    time + 10 * ((r.index + 4) % 5) + 10 ≤ now := by
  obtain ⟨(last : Nat), hl, ht⟩ := h
  have hp : 10 ≤ now - last := by
    rw [isDue, hl] at hd
    exact of_decide_eq_true hd
  have ht : time + 10 * ((r.index + 4) % 5) ≤ last := ht
  omega

theorem turn_of_broadcast {i : Nat} (h : some (Job.ofIndex i) = some .broadcast) : i % 5 = 0 := by
  have hi := Job.index_ofIndex i
  rw [Option.some.inj h] at hi
  exact hi.symm

/-- The rotation comes an interval further with each job. -/
theorem Past.poll (h : r.Past time) (now : Nat) : (r.poll now).1.Past time := by
  have hp := r.polled now
  generalize r.poll now = polled at hp ⊢
  cases hp with
  | early hd => exact h
  | due hd =>
    have hle := h.interval_le hd
    refine ⟨now, rfl, ?_⟩
    show time + 10 * (((r.index + 1) % 5 + 4) % 5) ≤ now
    omega

/-- The next broadcast comes a whole cycle later. -/
theorem Past.cycle_le (h : r.Past time) (hj : (r.poll now).2 = some .broadcast) :
    time + 50 ≤ now := by
  have hp := r.polled now
  generalize r.poll now = polled at hp hj
  cases hp with
  | early hd => cases hj
  | due hd =>
    have hle := h.interval_le hd
    have hi := turn_of_broadcast hj
    omega

theorem past_of_broadcast (hj : (r.poll now).2 = some .broadcast) : (r.poll now).1.Past now := by
  have hp := r.polled now
  generalize r.poll now = polled at hp hj
  cases hp with
  | early hd => cases hj
  | due hd =>
    have hi := turn_of_broadcast hj
    refine ⟨now, rfl, ?_⟩
    show now + 10 * (((r.index + 1) % 5 + 4) % 5) ≤ now
    omega

end Rotation

/-! ## Numbers -/

namespace Engine

/-- A step that tries to send one broadcast under the next number, or that leaves the count
alone and sends none. -/
inductive Counts (e : Engine) (now : Millis) : Bool → Engine × List Action → Prop where
  | one {done : Engine × List Action} (hs : done.1.sequence = e.sequence + 1) (taken : Bool)
    (hb : statusEntriesIn now done.2 = [⟨now, e.sequence, taken⟩]) : e.Counts now true done
  | none {done : Engine × List Action} (hs : done.1.sequence = e.sequence)
    (hb : statusEntriesIn now done.2 = []) : e.Counts now false done

variable {e d : Engine} {now : Millis}

theorem Counts.congr {due : Bool} {done : Engine × List Action} (h : d.Counts now due done)
    (hs : d.sequence = e.sequence) : e.Counts now due done := by
  cases h with
  | one hs' taken hb => exact .one (hs ▸ hs') taken (hs ▸ hb)
  | none hs' hb => exact .none (hs'.trans hs) hb

/-- Only what is done once the gimbal is found includes a broadcast. -/
theorem Does.statusEntriesIn_eq_nil {pending : Bool} {actions : List Action}
    (h : e.Does pending actions) (hs : e.state ≠ .found) : statusEntriesIn now actions = [] := by
  cases h with
  | broadcast hf => exact absurd hf hs
  | request hf => exact absurd hf hs
  | _ => rfl

theorem broadcastJob_counts (e : Engine) (now : Millis) (v : Vehicle) :
    e.Counts now (e.settings.features.contains Features.broadcast) (e.broadcastJob v) := by
  unfold broadcastJob
  cases e.settings.features.contains Features.broadcast with
  | true =>
    refine .one ?_ _ rfl
    simp only [if_true]
    rw [attempt_eq]
  | false => exact .none rfl rfl

theorem requestJob_counts (e : Engine) (now : Millis) : e.Counts now false e.requestJob := by
  obtain ⟨link, hl⟩ := e.requestLive_eq
  obtain ⟨link', hc⟩ := e.requestLive.1.cameraShot_eq
  refine .none ?_ ?_
  · show e.requestLive.1.cameraShot.1.sequence = e.sequence
    rw [hc, hl]
  · show statusEntriesIn now (e.requestLive.2 ++ e.requestLive.1.cameraShot.2) = []
    have hlive := e.requestLive_asks
    have hshot := e.requestLive.1.cameraShot_shoots
    generalize e.requestLive.2 = asks at hlive ⊢
    generalize e.requestLive.1.cameraShot.2 = shots at hshot ⊢
    cases hlive <;> cases hshot <;> rfl

theorem pointJob_counts (e : Engine) (now : Millis) (v : Vehicle) :
    e.Counts now false (e.pointJob v) := by
  unfold pointJob
  dsimp only
  split
  · next aim c hc =>
    refine .none ?_ ?_
    · rw [attempt_eq]
    · obtain rfl | rfl := Pointer.commandFor_cases (Pointer.cycle_some hc).symm
      · rfl
      · cases aim.target <;> rfl
  · exact .none rfl rfl

theorem inputsJob_counts (e : Engine) (now : Millis) (v : Vehicle) :
    e.Counts now false (e.inputsJob v) := by
  unfold inputsJob
  split
  · exact .none (by rw [attempt_eq]) rfl
  · exact .none rfl rfl

theorem receiveJob_counts (e : Engine) (now : Millis) : e.Counts now false e.receiveJob := by
  obtain ⟨link, telemetry, hr⟩ := e.receiveJob_eq
  refine .none (by rw [hr]) ?_
  unfold receiveJob
  split
  · rfl
  · next hw =>
    have h : statusEntriesIn now e.receiveStatus.2.1 = [] := by rw [receiveStatus_actions hw]; rfl
    dsimp only
    split <;> exact h
  · next hw =>
    have h : statusEntriesIn now e.receiveFrame.2.1 = [] := by rw [receiveFrame_actions hw]; rfl
    dsimp only
    split <;> exact h

theorem runJob_counts (e : Engine) (now : Millis) (v : Vehicle) (j : Job) :
    e.Counts now (j = .broadcast && e.settings.features.contains Features.broadcast)
      (e.runJob v j) := by
  cases j with
  | broadcast => exact e.broadcastJob_counts now v
  | request => exact e.requestJob_counts now
  | point => exact e.pointJob_counts now v
  | inputs => exact e.inputsJob_counts now v
  | receive => exact e.receiveJob_counts now

theorem jobStep_counts (e : Engine) (now : Millis) (v : Vehicle) :
    e.Counts now ((e.rotation.poll now).2 = some .broadcast &&
      e.settings.features.contains Features.broadcast) (e.jobStep now v) := by
  unfold jobStep
  obtain ⟨rotation, _ | j⟩ := e.rotation.poll now
  · exact .none rfl rfl
  · simp only [Option.some.injEq]
    exact (runJob_counts { e with rotation } now v j).congr rfl

/-- A tick counts a broadcast once the gimbal is found, at its turn. -/
theorem tick_counts (e : Engine) (now : Millis) (v : Vehicle) (connected : Bool) :
    e.Counts now (e.state = .found && ((e.rotation.poll now).2 = some .broadcast &&
        e.settings.features.contains Features.broadcast))
      ((e.tick now v connected).1, (e.tick now v connected).2.actions) := by
  cases hs : e.state with
  | disabled =>
    rw [tick_of_disabled hs]
    exact .none rfl rfl
  | searching =>
    obtain ⟨_, _, _, _, _, _, hu⟩ := e.searchUpdate_searchStep now
    have hb : statusEntriesIn now (e.searchStep now).2 = [] :=
      (searchStep_does hs now).statusEntriesIn_eq_nil (by rw [hs]; decide)
    simp only [tick, hs]
    exact .none (by rw [hu]) hb
  | found =>
    have hn := e.sendNotices_eq connected
    simp only [tick, hs]
    generalize (e.sendNotices connected).1 = d at hn ⊢
    have hj := d.jobStep_counts now v
    rw [hn] at hj ⊢
    exact hj.congr rfl

theorem runJob_rotation (e : Engine) (v : Vehicle) (j : Job) :
    (e.runJob v j).1.rotation = e.rotation ∧ (e.runJob v j).1.state = e.state := by
  by_cases h : j = .receive
  · subst h
    obtain ⟨_, _, hr⟩ := e.receiveJob_eq
    show e.receiveJob.1.rotation = e.rotation ∧ e.receiveJob.1.state = e.state
    rw [hr]
    exact ⟨rfl, rfl⟩
  · have hk := runJob_keeps (e := e) h v
    exact ⟨hk.rotation_eq, hk.state_eq⟩

theorem jobStep_rotation (e : Engine) (now : Millis) (v : Vehicle) :
    (e.jobStep now v).1.rotation = (e.rotation.poll now).1 ∧
      (e.jobStep now v).1.state = e.state := by
  unfold jobStep
  obtain ⟨rotation, _ | j⟩ := e.rotation.poll now
  · exact ⟨rfl, rfl⟩
  · exact runJob_rotation { e with rotation } v j

end Engine

namespace Rig

variable {r : Rig} {op : Operation} {log : List StatusEntry}

/-- It is the turn of the broadcast, and it is switched on. -/
def broadcastDue (r : Rig) (op : Operation) : Bool :=
  r.job op = some .broadcast && r.engine.settings.features.contains Features.broadcast

theorem job_of_ne_tick (h : op ≠ .tick) : r.job op = none := by
  cases op with
  | tick => exact absurd rfl h
  | _ => rfl

theorem statusEntries_of_ne_tick (h : op ≠ .tick) : r.statusEntries op = [] := by
  cases op with
  | tick => exact absurd rfl h
  | _ => rfl

/-- An operation tries to send one broadcast under the next number if it is due, and none
otherwise. -/
theorem perform_counts (r : Rig) (op : Operation) :
    r.broadcastDue op = true ∧ (r.perform op).1.engine.sequence = r.engine.sequence + 1 ∧
        (∃ taken, r.statusEntries op = [⟨r.clock.now, r.engine.sequence, taken⟩]) ∨
      r.broadcastDue op = false ∧ (r.perform op).1.engine.sequence = r.engine.sequence ∧
        r.statusEntries op = [] := by
  by_cases ho : op = .tick
  · subst ho
    have hdue : r.broadcastDue .tick = (r.engine.state = .found &&
        ((r.engine.rotation.poll r.clock.now).2 = some .broadcast &&
          r.engine.settings.features.contains Features.broadcast)) := by
      rw [broadcastDue, job]
      split <;> simp [*]
    have ht := r.engine.tick_counts r.clock.now r.vehicle r.connected
    rw [← hdue] at ht
    generalize r.broadcastDue .tick = due at ht ⊢
    cases ht with
    | one hs taken hb => exact .inl ⟨rfl, hs, taken, hb⟩
    | none hs hb => exact .inr ⟨rfl, hs, hb⟩
  · obtain ⟨link, pointer, -, he⟩ := perform_eq (r := r) ho
    refine .inr ⟨?_, by rw [he], statusEntries_of_ne_tick ho⟩
    rw [broadcastDue, job_of_ne_tick ho]
    rfl

/-- Once the gimbal is found it stays so, and the rotation is polled or left alone; what is done
is what the poll hands out. -/
theorem perform_rotation (h : r.engine.state = .found) (op : Operation) :
    (r.perform op).1.engine.state = .found ∧
      ((r.perform op).1.engine.rotation = (r.engine.rotation.poll r.clock.now).1 ∨
        (r.perform op).1.engine.rotation = r.engine.rotation ∧ r.job op = none) := by
  by_cases ho : op = .tick
  · subst ho
    have hk := r.engine.sendNotices_keepsAll r.connected
    have hj := (r.engine.sendNotices r.connected).1.jobStep_rotation r.clock.now r.vehicle
    have he : (r.perform .tick).1.engine =
        ((r.engine.sendNotices r.connected).1.jobStep r.clock.now r.vehicle).1 := by
      show (r.engine.tick r.clock.now r.vehicle r.connected).1 = _
      simp only [Engine.tick, h]
    rw [hk.rotation_eq, hk.state_eq] at hj
    rw [he]
    exact ⟨hj.2.trans h, .inl hj.1⟩
  · have hk := perform_keeps (r := r) ho
    exact ⟨hk.state_eq.trans h, .inr ⟨hk.rotation_eq, job_of_ne_tick ho⟩⟩

/-- A broadcast that is due was handed out by the rotation. -/
theorem rotation_of_due (h : r.broadcastDue op = true) :
    (r.engine.rotation.poll r.clock.now).2 = some .broadcast ∧
      (r.perform op).1.engine.state = .found ∧
      (r.perform op).1.engine.rotation = (r.engine.rotation.poll r.clock.now).1 := by
  have hjob : r.job op = some .broadcast := of_decide_eq_true (Bool.and_eq_true_iff.1 h).1
  obtain ⟨-, hf, hj⟩ := job_eq_some_iff.1 hjob
  obtain ⟨hf', hr | ⟨-, hn⟩⟩ := perform_rotation hf op
  · exact ⟨hj, hf', hr⟩
  · exact nomatch hjob.symm.trans hn

/-! ## Runs -/

/-- The log is numbered from zero and its entries are a cycle apart; the engine is at the next
number, and its rotation past every entry. -/
structure Numbered (r : Rig) (log : List StatusEntry) : Prop where
  sequence_eq : r.engine.sequence = UInt8.ofNat log.length
  numbers : log.map StatusEntry.sequence = (List.range log.length).map UInt8.ofNat
  spaced : log.Pairwise fun x y => x.time + 50 ≤ y.time
  past : ∀ x ∈ log, r.engine.state = .found ∧ r.engine.rotation.Past x.time

/-- The rotation goes on past every entry. -/
theorem Numbered.past_perform (h : r.Numbered log) (op : Operation) :
    ∀ x ∈ log, (r.perform op).1.engine.state = .found ∧
      (r.perform op).1.engine.rotation.Past x.time := by
  intro x hx
  obtain ⟨hf, hp⟩ := h.past x hx
  obtain ⟨hf', hr | ⟨hr, -⟩⟩ := perform_rotation hf op
  · exact ⟨hf', hr ▸ hp.poll r.clock.now⟩
  · exact ⟨hf', hr ▸ hp⟩

theorem Numbered.perform (h : r.Numbered log) (op : Operation) :
    (r.perform op).1.Numbered (log ++ r.statusEntries op) := by
  have hpast := h.past_perform op
  obtain ⟨hdue, hs, taken, hb⟩ | ⟨-, hs, hb⟩ := r.perform_counts op
  · obtain ⟨hj, hf, hr⟩ := rotation_of_due hdue
    rw [hb]
    -- The new entry has the number that the engine was at, and the rotation has come round since
    -- each of the others.
    refine ⟨?_, ?_, ?_, ?_⟩
    · rw [hs, h.sequence_eq, List.length_append, List.length_singleton, UInt8.ofNat_add]
      rfl
    · rw [List.map_append, h.numbers, List.length_append, List.length_singleton,
        List.range_succ, List.map_append, h.sequence_eq]
      rfl
    · refine List.pairwise_append.2 ⟨h.spaced, List.pairwise_singleton .., fun x hx y hy => ?_⟩
      obtain rfl := List.mem_singleton.1 hy
      exact (h.past x hx).2.cycle_le hj
    · intro x hx
      obtain hx | hx := List.mem_append.1 hx
      · exact hpast x hx
      · obtain rfl := List.mem_singleton.1 hx
        exact ⟨hf, hr ▸ Rotation.past_of_broadcast hj⟩
  · rw [hb, List.append_nil]
    exact ⟨hs.trans h.sequence_eq, h.numbers, h.spaced, hpast⟩

theorem numbered_run (h : r.Numbered log) (ops : List Operation) :
    (run perform r ops).1.Numbered (log ++ r.statusLog ops) := by
  induction ops generalizing r log with
  | nil =>
    rw [statusLog, List.append_nil]
    exact h
  | cons op rest ih =>
    rw [statusLog, ← List.append_assoc]
    exact ih (h.perform op)

theorem Numbered.sequence_at (h : r.Numbered log) {k : Nat} {x : StatusEntry}
    (hx : log[k]? = some x) : x.sequence = UInt8.ofNat k := by
  have hk : k < log.length := (List.getElem?_eq_some_iff.1 hx).1
  have hn := congrArg (·[k]?) h.numbers
  simp only [List.getElem?_map, hx, List.getElem?_range hk, Option.map_some] at hn
  exact Option.some.inj hn

theorem Numbered.sequence_of_split (h : r.Numbered log) {before after : List StatusEntry}
    {x : StatusEntry} (hl : log = before ++ x :: after) :
    x.sequence = UInt8.ofNat before.length := by
  refine h.sequence_at ?_
  rw [hl, List.getElem?_append_right (Nat.le_refl _), Nat.sub_self, List.getElem?_cons_zero]

end Rig

/-! ## On the wire -/

/-- The number of the status broadcast that a frame is, if it is one. -/
def Frame.statusNumber? (f : Frame) : Option UInt8 :=
  match Command.ofFrame f with
  | .ok (.linkStatus status) => some status.sequence
  | _ => none

/-- Of the entries that get through, two that follow each other, and those between them that
do not get through. -/
def Neighbours (through : StatusEntry → Bool) (log : List StatusEntry) (x : StatusEntry)
    (dropped : List StatusEntry) (y : StatusEntry) : Prop :=
  ∃ before after, log = before ++ x :: (dropped ++ y :: after) ∧ through x = true ∧
    through y = true ∧ ∀ z ∈ dropped, through z = false

theorem neighbours_of_filter {through : StatusEntry → Bool} {log front back : List StatusEntry}
    {x y : StatusEntry} (h : log.filter through = front ++ x :: y :: back) :
    ∃ dropped, Neighbours through log x dropped y := by
  obtain ⟨first, rest, rfl, -, h⟩ := List.filter_eq_append_iff.1 h
  obtain ⟨skipped, rest, rfl, -, hx, h⟩ := List.filter_eq_cons_iff.1 h
  obtain ⟨dropped, after, rfl, hd, hy, -⟩ := List.filter_eq_cons_iff.1 h
  refine ⟨dropped, first ++ skipped, after, (List.append_assoc ..).symm, hx, hy, fun z hz => ?_⟩
  exact Bool.eq_false_iff.2 (hd z hz)

/-- The entry tells whether the channel took the attempt. -/
theorem Attempt.statusEntry?_of_taken (a : Attempt) (now : Millis) :
    (if a.taken then a.statusEntry? now else none) =
      (a.statusEntry? now).filter StatusEntry.taken := by
  obtain ⟨c, result⟩ := a
  cases c <;> cases result <;> rfl

theorem Attempt.statusNumbers_frames (a : Attempt) (now : Millis) :
    a.frames.filterMap Frame.statusNumber? =
      ((a.statusEntry? now).map StatusEntry.sequence).toList := by
  obtain ⟨c, result⟩ := a
  have hf := c.toFrame_eq_ok .noAck
  generalize hg : (⟨.noAck, c.code, c.payload, _⟩ : Frame) = f at hf
  have ho : Command.ofFrame f = .ok c.capped :=
    Command.ofFrame_of_payload (by rw [← hg]) (by rw [← hg])
  have hframes : (⟨c, result⟩ : Attempt).frames = [f] := by
    rw [frames, hf]
    rfl
  rw [hframes]
  cases c <;> simp only [List.filterMap_cons, Frame.statusNumber?, ho] <;> rfl

/-- The status broadcasts among the frames that the channel took are the entries that it
took. -/
theorem statusNumbers_takenFrames (now : Millis) (attempts : List Attempt) :
    (takenFrames attempts).filterMap Frame.statusNumber? =
      ((attempts.filterMap (Attempt.statusEntry? now)).filter StatusEntry.taken).map
        StatusEntry.sequence := by
  calc (takenFrames attempts).filterMap Frame.statusNumber?
      = (attempts.filter Attempt.taken).flatMap fun a => a.frames.filterMap Frame.statusNumber? :=
        List.filterMap_flatMap ..
    _ = (attempts.filter Attempt.taken).flatMap fun a =>
          ((a.statusEntry? now).map StatusEntry.sequence).toList := by
        simp only [Attempt.statusNumbers_frames _ now]
    _ = ((attempts.filter Attempt.taken).filterMap (Attempt.statusEntry? now)).map
          StatusEntry.sequence := by
        rw [List.map_filterMap, List.filterMap_eq_flatMap_toList]
    _ = ((attempts.filterMap (Attempt.statusEntry? now)).filter StatusEntry.taken).map
          StatusEntry.sequence := by
        simp only [List.filterMap_filter, List.filter_filterMap, Attempt.statusEntry?_of_taken]

namespace Rig

variable {r : Rig} {log : List StatusEntry}

/-- Over what was dropped the numbers go on. -/
theorem Numbered.sequence_neighbours (h : r.Numbered log) {through : StatusEntry → Bool}
    {x y : StatusEntry} {dropped : List StatusEntry} (hn : Neighbours through log x dropped y) :
    y.sequence = x.sequence + 1 + UInt8.ofNat dropped.length := by
  obtain ⟨before, after, hl, -⟩ := hn
  have hx := h.sequence_of_split hl
  have hy := h.sequence_of_split
    (hl.trans (List.append_assoc before (x :: dropped) (y :: after)).symm)
  rw [hy, hx, List.length_append, List.length_cons, Nat.add_comm dropped.length 1,
    UInt8.ofNat_add, UInt8.ofNat_add, UInt8.add_assoc]
  rfl

theorem statusNumbers_transmitted (r : Rig) (ops : List Operation) :
    (r.transmitted ops).filterMap Frame.statusNumber? =
      ((r.statusLog ops).filter StatusEntry.taken).map StatusEntry.sequence := by
  induction ops generalizing r with
  | nil => rfl
  | cons op rest ih =>
    have hop := statusNumbers_takenFrames r.clock.now (r.attempts op)
    have hrest := ih (r.perform op).1
    simp only [transmitted, attemptsOver, takenFrames_append, List.filterMap_append] at hrest ⊢
    rw [hop, hrest, statusLog, List.filter_append, List.map_append]
    rfl

/-- Status broadcasts are numbered and paced. Over any run from the start, on either channel,
the broadcasts that are tried to be sent carry the numbers from zero on, to the modulus of a
byte, whatever became of those before; of any two of them the later comes fifty milliseconds
after the other at least, by the clock; and one is tried to be sent just when it is its turn and
broadcasts are switched on. The numbers among the frames that the channel took are those of the
entries that it took. And whichever of the entries get through, of two that follow each other
the numbers differ by one more than there were dropped between them. -/
theorem run_numbering (kind : Option ChannelKind) (settings : Settings) (vehicle : Vehicle)
    (connected ready : Bool) (start : Millis) (ops : List Operation) :
    let first := (new kind settings vehicle connected ready start).1
    let r := (run perform first ops).1
    let log := first.statusLog ops
    (∀ k x, log[k]? = some x → x.sequence.toNat = k % 256) ∧
      log.Pairwise (fun x y => x.time + 50 ≤ y.time) ∧
      (∀ op, (r.statusEntries op).map StatusEntry.time =
        if r.job op = some .broadcast ∧ settings.features.contains Features.broadcast then
          [r.clock.now] else []) ∧
      (first.transmitted ops).filterMap Frame.statusNumber? =
        (log.filter StatusEntry.taken).map StatusEntry.sequence ∧
      ∀ through front x y back, log.filter through = front ++ x :: y :: back →
        ∃ dropped, Neighbours through log x dropped y ∧
          y.sequence = x.sequence + 1 + UInt8.ofNat dropped.length := by
  intro first r log
  have hfirst : first.Numbered [] := ⟨rfl, rfl, .nil, nofun⟩
  have h : r.Numbered log := numbered_run hfirst ops
  refine ⟨fun k x hx => ?_, h.spaced, fun op => ?_, first.statusNumbers_transmitted ops,
    fun through front x y back hsplit => ?_⟩
  · rw [h.sequence_at hx, UInt8.toNat_ofNat']
  · have hset : r.engine.settings = settings :=
      (made_run kind settings vehicle connected ready start ops).settings_eq
    have hdue : r.broadcastDue op = true ↔
        r.job op = some .broadcast ∧ settings.features.contains Features.broadcast = true := by
      rw [broadcastDue, Bool.and_eq_true, decide_eq_true_iff, hset]
    obtain ⟨hd, -, taken, hb⟩ | ⟨hd, -, hb⟩ := r.perform_counts op
    · rw [hb, if_pos (hdue.1 hd)]
      rfl
    · rw [hb, if_neg fun hn => nomatch hd.symm.trans (hdue.2 hn)]
      rfl
  · obtain ⟨dropped, hn⟩ := neighbours_of_filter hsplit
    exact ⟨dropped, hn, h.sequence_neighbours hn⟩

/-- A cycle of jobs. -/
def oneCycle : List Operation := (List.replicate 5 [.tick, .advance jobInterval]).flatten

example :
    let ops := answered ++ .tick :: oneCycle ++ .setLimit 0 :: oneCycle ++
      .setLimit Port.capacity :: oneCycle
    (quiet.transmitted ops).filterMap Frame.statusNumber? = [0, 2] := by
  decide +kernel

end Rig

end GimbalLink
