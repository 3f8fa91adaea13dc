import GimbalLink.Proofs.Engine.Disabled
import GimbalLink.Proofs.Engine.Repertoire
import GimbalLink.Proofs.Message.CommandWire
/-
  What an engine hands to its channel.

  A frame that the channel refuses is not handed over. What is handed over is what the
  channel was given to write: with the incoming side left out, a tick leaves the channel as
  if the emissions had been written to it, one after the other, and nothing else had been
  done (`Link.Follows.hands`).

  Which command goes out when, and how urgent it is, is read off the list of all that a
  tick can do. A picture is sent for at most once each time it is asked for: the mark that
  it is asked for is lowered in the tick that sends, so that one picture to come and those
  that were handed over never outnumber the triggers.

  What is proved:
    1. `Engine.Does.emission_lawful`, `Engine.Does.few`, `Engine.Does.cameras_le`: the frames
       of one tick.
    2. `Rig.cameras_run_le`: pictures and triggers over a run.
    3. `Rig.run_emissions`: all of it together, for runs from the start.
-/
namespace GimbalLink

/-! ## Emissions -/

/-- A frame that was handed to a channel. -/
structure Emission where
  frame : Frame
  priority : Priority

namespace Emission

/-- The command that the frame reads as. -/
def command? (x : Emission) : Option Command := (Command.ofFrame x.frame).toOption

/-- The frame has a picture taken. -/
def isCamera (x : Emission) : Bool :=
  match x.command? with
  | some (.camera _) => true
  | _ => false

end Emission

/-- The frame that was handed over, if one was. -/
def Action.emission? : Action → Option Emission
  | .send c priority (.ok _) => (c.toFrame .noAck).toOption.map (⟨·, priority⟩)
  | _ => none

def Report.emissions (report : Report) : List Emission :=
  report.actions.filterMap Action.emission?

def Rig.Outcome.emissions : Rig.Outcome → List Emission
  | .ticked report => report.emissions
  | _ => []

namespace Channel

/-- The channel is given a frame to write. -/
def hand (c : Channel) (x : Emission) : Channel := (c.write x.frame.toBytes x.priority).1

/-- The channel without what came in. -/
def deaf : Channel → Channel
  | serial port => serial port.clear
  | bus link => bus { link with inbox := none }

theorem deaf_hand (c : Channel) (x : Emission) : (c.hand x).deaf = c.deaf.hand x := by
  cases c with
  | serial port => rfl
  | bus link =>
    obtain ⟨node, ready, accepting, sent, inbox⟩ := link
    cases accepting <;> rfl

theorem deaf_blank (c : Channel) : c.blank.deaf = c.deaf := by
  cases c <;> rfl

theorem deaf_takeStatus (c : Channel) : c.takeStatus.1.deaf = c.deaf := by
  cases c <;> rfl

end Channel

namespace Link

theorem deaf_receive (l : Link) : l.receive.1.channel.deaf = l.channel.deaf := by
  obtain ⟨port, rx, h, hr⟩ | ⟨link, h, hr⟩ := l.receive_cases
  · rw [h, hr]
    rfl
  · rw [h, hr]

/-- A command is refused, or its frame is handed over. -/
theorem send_cases (l : Link) (c : Command) (priority : Priority) :
    ∃ f, c.toFrame .noAck = .ok f ∧
      (l.send c priority = (l, .error .insufficientSpace) ∨
        ∃ n, l.send c priority = ({ l with channel := l.channel.hand ⟨f, priority⟩ }, .ok n)) := by
  refine ⟨_, c.toFrame_eq_ok .noAck, ?_⟩
  simp only [send, c.toFrame_eq_ok .noAck, sendFrame_eq]
  split
  · exact .inl rfl
  · exact .inr ⟨_, rfl⟩

/-- With the incoming side left out, some actions leave the channel as if the frames had been
written to it, and nothing else had been done. -/
theorem Follows.hands {l m : Link} {actions : List Action} (h : l.Follows actions m) :
    m.channel.deaf = (actions.filterMap Action.emission?).foldl Channel.hand l.channel.deaf := by
  induction h with
  | nothing => rfl
  | @flush l m rest _ ih =>
    rw [ih, flush_eq_blank, blank, Channel.deaf_blank]
    rfl
  | @receive l m rest _ ih =>
    rw [ih, deaf_receive]
    rfl
  | @takeStatus l m rest _ ih =>
    rw [ih, Channel.deaf_takeStatus]
    rfl
  -- A frame that is refused leaves the link as it is, and one that is handed over is written
  -- and counts as an emission.
  | @send l m rest c priority _ ih =>
    obtain ⟨f, hf, hs | ⟨n, hs⟩⟩ := l.send_cases c priority
    · have hx : (Action.send c priority (l.send c priority).2).emission? = none := by rw [hs]; rfl
      rw [ih, List.filterMap_cons_none hx, hs]
    · have hx : (Action.send c priority (l.send c priority).2).emission? = some ⟨f, priority⟩ := by
        rw [hs]
        simp only [Action.emission?, hf]
        rfl
      rw [ih, List.filterMap_cons_some hx, List.foldl_cons, hs, Channel.deaf_hand]

end Link

namespace Engine

variable {e : Engine} {pending : Bool} {actions : List Action}

/-! ## What the list says -/

/-- A command may go out, with this priority, on this kind of channel and in this state. -/
structure Lawful (kind : Option ChannelKind) (features : Features) (state : SearchState)
    (c : Command) (priority : Priority) : Prop where
  version : c = .getVersion → state = .searching ∧ kind = some .serial
  searching : state = .searching → c = .getVersion
  live : ∀ fields, c = .getLiveData fields → kind = some .serial
  status : ∀ status, c = .linkStatus status → features.contains Features.broadcast = true
  inputs : ∀ channels status, c = .setInputs channels status →
    features.contains Features.inputs = true
  camera : ∀ action, c = .camera action → features.contains Features.camera = true
  urgent : priority = .highest ↔ ∃ status, c = .linkStatus status

/-- What is forwarded fits into a channel. -/
theorem capped_inputs (v : Vehicle) :
    (Command.setInputs (inputChannels v) 0).capped = .setInputs (inputChannels v) 0 := by
  have hc (x : UInt16) : clampChannel (clampChannel x) = clampChannel x := by
    apply UInt16.toNat_inj.1
    rw [toNat_clampChannel, toNat_clampChannel, Nat.min_assoc, Nat.min_self]
  simp only [Command.capped, inputChannels, Vector.map_ofFn, Function.comp_def, hc]

/-- A command that a tick tries to send may go out, and loses nothing on the wire. -/
theorem Does.lawful (h : e.Does pending actions) {c : Command} {priority : Priority}
    {result : Except SendError Nat} (hm : .send c priority result ∈ actions) :
    Lawful e.wiring e.settings.features e.state c priority ∧ c.capped = c := by
  have not_searching (hs : e.state = .found) {p : Prop} : e.state = .searching → p :=
    fun h => nomatch hs.symm.trans h
  cases h with
  | nothing => exact absurd hm List.not_mem_nil
  | look hw => simp at hm
  | read hw => simp at hm
  | askVersion hs hw result =>
    obtain ⟨rfl, rfl, -⟩ : c = .getVersion ∧ priority = .normal ∧ _ := by simpa using hm
    exact ⟨⟨fun _ => ⟨hs, hw⟩, fun _ => rfl, nofun, nofun, nofun, nofun, by simp⟩, rfl⟩
  | broadcast hs hf status result =>
    obtain ⟨rfl, rfl, -⟩ : c = .linkStatus status ∧ priority = .highest ∧ _ := by simpa using hm
    exact ⟨⟨nofun, not_searching hs, nofun, fun _ _ => hf, nofun, nofun, by simp⟩, rfl⟩
  | angles hs pitch roll yaw result =>
    obtain ⟨rfl, rfl, -⟩ : c = .setAngles pitch roll yaw 0 0 ∧ priority = .normal ∧ _ := by
      simpa using hm
    exact ⟨⟨nofun, not_searching hs, nofun, nofun, nofun, nofun, by simp⟩, rfl⟩
  | pulses hs pitch roll yaw result =>
    obtain ⟨rfl, rfl, -⟩ : c = .setPulses pitch roll yaw ∧ priority = .normal ∧ _ := by
      simpa using hm
    exact ⟨⟨nofun, not_searching hs, nofun, nofun, nofun, nofun, by simp⟩, rfl⟩
  | inputs hs hf v result =>
    obtain ⟨rfl, rfl, -⟩ : c = .setInputs (inputChannels v) 0 ∧ priority = .normal ∧ _ := by
      simpa using hm
    exact ⟨⟨nofun, not_searching hs, nofun, nofun, fun _ _ _ => hf, nofun, by simp⟩,
      capped_inputs v⟩
  | request hs ha hc =>
    obtain hm | hm := List.mem_append.1 hm
    · cases ha with
      | no => exact absurd hm List.not_mem_nil
      | yes hw result =>
        obtain ⟨rfl, rfl, -⟩ : c = .getLiveData LiveFields.request ∧ priority = .normal ∧ _ := by
          simpa using hm
        exact ⟨⟨nofun, not_searching hs, fun _ _ => hw, nofun, nofun, nofun, by simp⟩, rfl⟩
    · cases hc with
      | no => exact absurd hm List.not_mem_nil
      | yes hp hf result =>
        obtain ⟨rfl, rfl, -⟩ : c = .camera takePicture ∧ priority = .normal ∧ _ := by
          simpa using hm
        exact ⟨⟨nofun, not_searching hs, nofun, nofun, nofun, fun _ _ => hf, by simp⟩, rfl⟩

/-! ## The frames of one tick -/

/-- What is handed over for a command reads as the command. -/
theorem emission?_send_ok (c : Command) (priority : Priority) (n : Nat) :
    ∃ x, (Action.send c priority (.ok n)).emission? = some x ∧ x.priority = priority ∧
      x.frame.start = .noAck ∧ Command.ofFrame x.frame = .ok c.capped := by
  have h : c.payload.length ≤ maxPayload := c.length_payload ▸ c.payloadSize_le
  refine ⟨⟨⟨.noAck, c.code, c.payload, h⟩, priority⟩, ?_, rfl, rfl,
    Command.ofFrame_of_payload rfl rfl⟩
  rw [Action.emission?, c.toFrame_eq_ok .noAck]
  rfl

/-- Of one command that a tick tried to send, at most one frame is handed over. -/
theorem emissions_send (c : Command) (priority : Priority) (result : Except SendError Nat) :
    [Action.send c priority result].filterMap Action.emission? = [] ∨
      ∃ x, [Action.send c priority result].filterMap Action.emission? = [x] ∧
        x.command? = some c.capped := by
  cases result with
  | error e => exact .inl rfl
  | ok n =>
    obtain ⟨x, hx, -, -, hc⟩ := emission?_send_ok c priority n
    refine .inr ⟨x, ?_, ?_⟩
    · rw [List.filterMap_cons_some hx, List.filterMap_nil]
    · rw [Emission.command?, hc]
      rfl

/-- A frame that is handed over starts as one that asks for no acknowledgment, and reads as a
command that may go out. -/
theorem Does.emission_lawful (h : e.Does pending actions) {x : Emission}
    (hx : x ∈ actions.filterMap Action.emission?) :
    x.frame.toBytes.head? = some 0xf9 ∧ ∃ c, Command.ofFrame x.frame = .ok c ∧
      Lawful e.wiring e.settings.features e.state c x.priority := by
  obtain ⟨action, ha, hx⟩ := List.mem_filterMap.1 hx
  cases action with
  | send c priority result =>
    cases result with
    | error e => cases hx
    | ok n =>
      obtain ⟨y, hy, rfl, hstart, hc⟩ := emission?_send_ok c priority n
      obtain rfl : y = x := Option.some.inj (hy.symm.trans hx)
      obtain ⟨hl, hcap⟩ := h.lawful ha
      refine ⟨?_, c, hcap ▸ hc, hl⟩
      simp only [Frame.toBytes, hstart, List.cons_append, List.head?_cons]
      rfl
  | _ => cases hx

theorem AsksLive.emissions (h : e.AsksLive actions) :
    actions.filterMap Action.emission? = [] ∨
      ∃ x, actions.filterMap Action.emission? = [x] ∧
        ∃ fields, x.command? = some (.getLiveData fields) := by
  cases h with
  | no => exact .inl rfl
  | yes hw result =>
    obtain h | ⟨x, h, hx⟩ := emissions_send (.getLiveData LiveFields.request) .normal result
    · exact .inl h
    · exact .inr ⟨x, h, _, hx⟩

theorem Shoots.emissions (h : e.Shoots actions) :
    actions.filterMap Action.emission? = [] ∨
      ∃ x, actions.filterMap Action.emission? = [x] ∧ x.isCamera = true ∧
        e.cameraPending = true := by
  cases h with
  | no => exact .inl rfl
  | yes hp hf result =>
    obtain h | ⟨x, h, hx⟩ := emissions_send (.camera takePicture) .normal result
    · exact .inl h
    · exact .inr ⟨x, h, by rw [Emission.isCamera, hx]; rfl, hp⟩

/-- But for the request job, a tick hands over one frame at most, and no picture. -/
theorem Does.request_or_one (h : e.Does pending actions) :
    (pending = false ∧ ∃ asks shots, actions = asks ++ shots ∧ e.AsksLive asks ∧ e.Shoots shots) ∨
      (pending = e.cameraPending ∧ (actions.filterMap Action.emission? = [] ∨
        ∃ x, actions.filterMap Action.emission? = [x] ∧ x.isCamera = false)) := by
  have one (c : Command) (priority : Priority) (result : Except SendError Nat)
      (hc : ∀ action, c.capped ≠ .camera action) :
      [Action.send c priority result].filterMap Action.emission? = [] ∨
        ∃ x, [Action.send c priority result].filterMap Action.emission? = [x] ∧
          x.isCamera = false := by
    obtain h | ⟨x, h, hx⟩ := emissions_send c priority result
    · exact .inl h
    · refine .inr ⟨x, h, ?_⟩
      rw [Emission.isCamera, hx]
      cases hcap : c.capped with
      | camera action => exact absurd hcap (hc action)
      | _ => rfl
  cases h with
  | request hs ha hc => exact .inl ⟨rfl, _, _, rfl, ha, hc⟩
  | nothing => exact .inr ⟨rfl, .inl rfl⟩
  | look hw => exact .inr ⟨rfl, .inl rfl⟩
  | read hw => exact .inr ⟨rfl, .inl rfl⟩
  | askVersion hs hw result => exact .inr ⟨rfl, one _ _ _ nofun⟩
  | broadcast hs hf status result => exact .inr ⟨rfl, one _ _ _ nofun⟩
  | angles hs pitch roll yaw result => exact .inr ⟨rfl, one _ _ _ nofun⟩
  | pulses hs pitch roll yaw result => exact .inr ⟨rfl, one _ _ _ nofun⟩
  | inputs hs hf v result => exact .inr ⟨rfl, one _ _ _ nofun⟩

/-- A tick hands over one frame at most, or a request for live data and then a picture. -/
theorem Does.few (h : e.Does pending actions) :
    (actions.filterMap Action.emission?).length ≤ 1 ∨
      ∃ asks picture, actions.filterMap Action.emission? = [asks, picture] ∧
        (∃ fields, asks.command? = some (.getLiveData fields)) ∧ picture.isCamera = true := by
  obtain ⟨-, asks, shots, rfl, ha, hc⟩ | ⟨-, h | ⟨x, h, -⟩⟩ := h.request_or_one
  -- The channel may refuse the request and still take the picture, so each of the two may
  -- be missing.
  · rw [List.filterMap_append]
    obtain ha | ⟨x, ha, hx⟩ := ha.emissions <;> obtain hc | ⟨y, hc, hy, -⟩ := hc.emissions
    · simp [ha, hc]
    · simp [ha, hc]
    · simp [ha, hc]
    · exact .inr ⟨x, y, by rw [ha, hc]; rfl, hx, hy⟩
  · simp [h]
  · simp [h]

/-- The mark that a picture is asked for is up when one is handed over, and down afterwards. -/
theorem Does.cameras_le (h : e.Does pending actions) :
    (actions.filterMap Action.emission?).countP Emission.isCamera + pending.toNat ≤
      e.cameraPending.toNat := by
  obtain ⟨rfl, asks, shots, rfl, ha, hc⟩ | ⟨rfl, h | ⟨x, h, hx⟩⟩ := h.request_or_one
  -- The request job leaves the mark down, so a picture that goes out uses it up.
  · have hasks : (asks.filterMap Action.emission?).countP Emission.isCamera = 0 := by
      obtain ha | ⟨x, ha, fields, hx⟩ := ha.emissions
      · rw [ha, List.countP_nil]
      · rw [ha, List.countP_singleton, Emission.isCamera, hx]
        rfl
    rw [List.filterMap_append, List.countP_append, hasks]
    obtain hc | ⟨y, hc, hy, hp⟩ := hc.emissions
    · simp [hc]
    · simp [hc, hy, hp]
  · simp [h]
  · simp [h, hx]

end Engine

namespace Rig

/-! ## Runs -/

variable {r : Rig}

/-- Pictures that were handed over and one that is still to be taken come from triggers. -/
theorem cameras_perform_le (r : Rig) (op : Operation) :
    (r.perform op).2.emissions.countP Emission.isCamera +
        (r.perform op).1.engine.cameraPending.toNat ≤
      r.engine.cameraPending.toNat + op.isTrigger.toNat := by
  by_cases ho : op = .tick
  · subst ho
    exact (r.engine.tick_does r.clock.now r.vehicle r.connected).cameras_le
  · obtain ⟨_, _, -, he⟩ := perform_eq (r := r) ho
    have hp : (r.perform op).1.engine.cameraPending = (op.isTrigger || r.engine.cameraPending) := by
      rw [he]
    have hx : (r.perform op).2.emissions = [] := by
      cases op with
      | tick => exact absurd rfl ho
      | _ => rfl
    rw [hp, hx]
    cases op.isTrigger <;> cases r.engine.cameraPending <;> decide

/-- All that the ticks of a run handed over, in order. -/
def emitted (r : Rig) (ops : List Operation) : List Emission :=
  (run perform r ops).2.flatMap Outcome.emissions

theorem cameras_run_le (r : Rig) (ops : List Operation) :
    (r.emitted ops).countP Emission.isCamera +
        (run perform r ops).1.engine.cameraPending.toNat ≤
      r.engine.cameraPending.toNat + ops.countP Operation.isTrigger := by
  -- The mark counts as one picture to come; that carries the count from one operation to the
  -- next.
  induction ops generalizing r with
  | nil => exact Nat.le_of_eq (Nat.zero_add _)
  | cons op rest ih =>
    have hstep := cameras_perform_le r op
    have hrest := ih (r.perform op).1
    have hcount : (op :: rest).countP Operation.isTrigger =
        op.isTrigger.toNat + rest.countP Operation.isTrigger := by
      cases h : op.isTrigger with
      | false => simp [h]
      | true => simp [h, Nat.add_comm]
    simp only [emitted, run, List.flatMap_cons, List.countP_append] at hrest ⊢
    omega

/-- The engine may send in this operation. -/
def Operation.mayHand : Operation → Bool
  | .tick | .sendHome | .sendTarget _ => true
  | _ => false

theorem link_perform {op : Operation} (ho : op.isOutside = false) (hs : op.mayHand = false) :
    (r.perform op).1.engine.link = r.engine.link := by
  cases op with
  | setMode mode =>
    simp only [perform, onEngine, Engine.setMode]
    split <;> rfl
  | setExternal a => rfl
  | setInterest l => rfl
  | triggerCamera => rfl
  | requestBanner => rfl
  | takeUpdate => rfl
  | tick => cases hs
  | sendHome => cases hs
  | sendTarget l => cases hs
  | _ => cases ho

/-- What the engine of a rig may hand to its channel next, and how it may use it. -/
structure Disciplined (r : Rig) (kind : Option ChannelKind) (features : Features) : Prop where
  lawful : ∀ x ∈ r.tick.2.emissions, x.frame.toBytes.head? = some 0xf9 ∧
    ∃ c, Command.ofFrame x.frame = .ok c ∧
      Engine.Lawful kind features r.engine.state c x.priority
  /-- One frame at most, or a request for live data and then a picture. -/
  few : r.tick.2.emissions.length ≤ 1 ∨ ∃ asks picture, r.tick.2.emissions = [asks, picture] ∧
    (∃ fields, asks.command? = some (.getLiveData fields)) ∧ picture.isCamera = true
  silent_on_bus : kind = some .bus → .flush ∉ r.tick.2.actions ∧ .receive ∉ r.tick.2.actions
  /-- The tick did what it reports. -/
  follows : ∀ l, r.engine.link = some l →
    ∃ m, r.tick.1.engine.link = some m ∧ l.Follows r.tick.2.actions m
  /-- But for what came in, it leaves the channel with its emissions written. -/
  hands : r.tick.1.engine.link.map (·.channel.deaf) =
    r.engine.link.map fun l => r.tick.2.emissions.foldl Channel.hand l.channel.deaf
  /-- Between ticks nothing is handed over but a location that is asked for. -/
  between : ∀ op : Operation, op.isOutside = false → op.mayHand = false →
    (r.perform op).1.engine.link = r.engine.link

theorem Made.disciplined {kind : Option ChannelKind} {settings : Settings}
    (h : r.Made kind settings) : r.Disciplined kind settings.features := by
  obtain ⟨rfl, rfl, hd⟩ := h
  have hdoes := r.engine.tick_does r.clock.now r.vehicle r.connected
  have hreports := r.engine.tick_reports r.clock.now r.vehicle r.connected
  refine ⟨fun x hx => hdoes.emission_lawful hx, hdoes.few, hdoes.silent_on_bus, hreports, ?_,
    fun _ ho hs => link_perform ho hs⟩
  cases hl : r.engine.link with
  | none =>
    have hs : r.engine.state = .disabled := hd (by rw [Engine.wiring, hl]; rfl)
    rw [tick_of_disabled hs, hl]
    rfl
  | some l =>
    obtain ⟨m, hm, hf⟩ := hreports l hl
    show (r.engine.tick r.clock.now r.vehicle r.connected).1.link.map _ = _
    rw [hm]
    exact congrArg some hf.hands

/-- At every moment of every run the engine keeps to its discipline, and there were no more
pictures than triggers. -/
theorem run_emissions (kind : Option ChannelKind) (settings : Settings) (vehicle : Vehicle)
    (connected ready : Bool) (start : Millis) (before : List Operation) :
    let first := (new kind settings vehicle connected ready start).1
    (run perform first before).1.Disciplined kind settings.features ∧
      (first.emitted before).countP Emission.isCamera ≤ before.countP Operation.isTrigger := by
  intro first
  refine ⟨(made_run kind settings vehicle connected ready start before).disciplined, ?_⟩
  have h := first.cameras_run_le before
  have hp : first.engine.cameraPending.toNat = 0 := rfl
  omega

end Rig

end GimbalLink
