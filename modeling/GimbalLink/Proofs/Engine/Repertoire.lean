import GimbalLink.Proofs.Engine.Fields
import GimbalLink.Proofs.Pointing.Failsafe
import GimbalLink.Proofs.Pointing.Recentre
/-
  All that a tick can do on its channel.

  While it searches, an engine looks for a sign of the gimbal, or asks for its version on
  the serial channel; once the gimbal is found, each job has little that it can do. So the
  things that a tick can do make a short list, each with what it takes for it to be done
  (`Engine.Does`), and what holds of every tick can be read off the list.

  With what is done goes the mark that a picture is asked for: the request job lowers it,
  whether or not it takes the picture, and nothing else does.

  What is proved: the list is complete (`Engine.tick_does`), and nothing is dropped on a
  bus or read from it (`Engine.Does.silent_on_bus`).
-/
namespace GimbalLink

namespace Engine

/-! ## What a tick can do -/

/-- What the request job does about live data. -/
inductive AsksLive (e : Engine) : List Action → Prop where
  | no : e.AsksLive []
  | yes (hw : e.wiring = some .serial) (result : Except SendError Nat) :
    e.AsksLive [.flush, .send (.getLiveData LiveFields.request) .normal result]

/-- What the request job does about a picture. -/
inductive Shoots (e : Engine) : List Action → Prop where
  | no : e.Shoots []
  | yes (hp : e.cameraPending = true) (hf : e.settings.features.contains Features.camera = true)
    (result : Except SendError Nat) : e.Shoots [.send (.camera takePicture) .normal result]

/-- What a tick can do on the channel, and whether a picture is still to be taken after it. -/
inductive Does (e : Engine) : Bool → List Action → Prop where
  | nothing : e.Does e.cameraPending []
  | look (hw : e.wiring = some .bus) : e.Does e.cameraPending [.takeStatus]
  | read (hw : e.wiring = some .serial) : e.Does e.cameraPending [.receive]
  | askVersion (hs : e.state = .searching) (hw : e.wiring = some .serial)
    (result : Except SendError Nat) :
    e.Does e.cameraPending [.flush, .send .getVersion .normal result]
  | broadcast (hs : e.state = .found)
    (hf : e.settings.features.contains Features.broadcast = true) (status : LinkStatus)
    (result : Except SendError Nat) :
    e.Does e.cameraPending [.send (.linkStatus status) .highest result]
  | request (hs : e.state = .found) {asks shots : List Action} (ha : e.AsksLive asks)
    (hc : e.Shoots shots) : e.Does false (asks ++ shots)
  | angles (hs : e.state = .found) (pitch roll yaw : Binary32) (result : Except SendError Nat) :
    e.Does e.cameraPending [.send (.setAngles pitch roll yaw 0 0) .normal result]
  | pulses (hs : e.state = .found) (pitch roll yaw : UInt16) (result : Except SendError Nat) :
    e.Does e.cameraPending [.send (.setPulses pitch roll yaw) .normal result]
  | inputs (hs : e.state = .found) (hf : e.settings.features.contains Features.inputs = true)
    (v : Vehicle) (result : Except SendError Nat) :
    e.Does e.cameraPending [.send (.setInputs (inputChannels v) 0) .normal result]

variable {e d : Engine} {pending : Bool} {actions : List Action}

theorem Shoots.congr (h : d.Shoots actions) (hset : d.settings = e.settings)
    (hp : d.cameraPending = e.cameraPending) : e.Shoots actions := by
  cases h with
  | no => exact .no
  | yes h hf result => exact .yes (hp ▸ h) (hset ▸ hf) result

/-- The list depends on four fields. -/
theorem Does.congr (h : d.Does pending actions) (hs : d.state = e.state)
    (hw : d.wiring = e.wiring) (hset : d.settings = e.settings)
    (hp : d.cameraPending = e.cameraPending) : e.Does pending actions := by
  cases h with
  | nothing => exact hp ▸ .nothing
  | look h => exact hp ▸ .look (hw ▸ h)
  | read h => exact hp ▸ .read (hw ▸ h)
  | askVersion h h' result => exact hp ▸ .askVersion (hs ▸ h) (hw ▸ h') result
  | broadcast h hf status result => exact hp ▸ .broadcast (hs ▸ h) (hset ▸ hf) status result
  | request h ha hc =>
    refine .request (hs ▸ h) ?_ (hc.congr hset hp)
    cases ha with
    | no => exact .no
    | yes h result => exact .yes (hw ▸ h) result
  | angles h pitch roll yaw result => exact hp ▸ .angles (hs ▸ h) pitch roll yaw result
  | pulses h pitch roll yaw result => exact hp ▸ .pulses (hs ▸ h) pitch roll yaw result
  | inputs h hf v result => exact hp ▸ .inputs (hs ▸ h) (hset ▸ hf) v result

/-! ## The list is complete -/

theorem receiveStatus_actions (hw : e.wiring = some .bus) :
    e.receiveStatus.2.1 = [.takeStatus] := by
  obtain ⟨l, hl, -⟩ := Option.map_eq_some_iff.1 hw
  simp only [receiveStatus, hl]

theorem receiveFrame_actions (hw : e.wiring = some .serial) :
    e.receiveFrame.2.1 = [.receive] := by
  obtain ⟨l, hl, -⟩ := Option.map_eq_some_iff.1 hw
  simp only [receiveFrame, hl]

theorem awaitBroadcast_actions (hw : e.wiring = some .bus) :
    e.awaitBroadcast.2 = [.takeStatus] := by
  have h := receiveStatus_actions hw
  unfold awaitBroadcast
  dsimp only
  split <;> exact h

theorem awaitVersion_actions (hw : e.wiring = some .serial) :
    e.awaitVersion.2 = [.receive] := by
  have h := receiveFrame_actions hw
  unfold awaitVersion
  dsimp only
  split <;> exact h

theorem searchStep_does (hs : e.state = .searching) (now : Millis) :
    e.Does e.cameraPending (e.searchStep now).2 := by
  unfold searchStep
  split
  · exact .nothing
  · next l hl =>
    have hk : e.wiring = some l.channel.kind := by rw [wiring, hl, Option.map_some]
    split
    · next hc =>
      rw [hc] at hk
      rw [searchBus_eq]
      split
      · exact .nothing
      · rw [awaitBroadcast_actions (e := { e with search := (e.search.checkLimit now).1 }) hk]
        exact .look hk
    · next hc =>
      rw [hc] at hk
      cases hp : (e.search.poll now).2 with
      | idle =>
        rw [searchSerial_quiet (.inl hp)]
        exact .nothing
      | timedOut =>
        rw [searchSerial_quiet (.inr hp)]
        exact .nothing
      | request =>
        rw [searchSerial_request hp]
        exact .askVersion hs hk _
      | await =>
        rw [searchSerial_await hp,
          awaitVersion_actions (e := { e with search := (e.search.poll now).1 }) hk]
        exact .read hk

theorem requestLive_asks (e : Engine) : e.AsksLive e.requestLive.2 := by
  unfold requestLive
  split
  · next h =>
    have hw : e.wiring = some .serial := by
      rw [kind] at h
      split at h
      · cases h
      · exact h
    exact .yes hw _
  · exact .no

theorem cameraShot_shoots (e : Engine) : e.Shoots e.cameraShot.2 := by
  unfold cameraShot
  dsimp only
  split
  · next h =>
    rw [Bool.and_eq_true] at h
    exact .yes h.1 h.2 _
  · exact .no

theorem requestJob_does (hs : e.state = .found) :
    e.Does e.requestJob.1.cameraPending e.requestJob.2 := by
  obtain ⟨link, hl⟩ := e.requestLive_eq
  obtain ⟨link', hc⟩ := e.requestLive.1.cameraShot_eq
  have hp : e.requestJob.1.cameraPending = false := by
    show e.requestLive.1.cameraShot.1.cameraPending = false
    rw [hc]
  rw [hp]
  refine .request hs e.requestLive_asks ?_
  exact e.requestLive.1.cameraShot_shoots.congr (by rw [hl]) (by rw [hl])

theorem runJob_does (hs : e.state = .found) (v : Vehicle) (j : Job) :
    e.Does (e.runJob v j).1.cameraPending (e.runJob v j).2 := by
  cases j with
  | request => exact requestJob_does hs
  | broadcast =>
    show e.Does (e.broadcastJob v).1.cameraPending (e.broadcastJob v).2
    unfold broadcastJob
    split
    · next hf =>
      rw [attempt_eq]
      exact .broadcast hs hf _ _
    · exact .nothing
  | point =>
    show e.Does (e.pointJob v).1.cameraPending (e.pointJob v).2
    unfold pointJob
    dsimp only
    split
    · next aim c hc =>
      rw [attempt_eq]
      obtain rfl | rfl := Pointer.commandFor_cases (Pointer.cycle_some hc).symm
      · exact .pulses hs 0 0 0 _
      · cases aim.target with
        | angles a => exact .angles hs _ _ _ _
        | pulses p => exact .pulses hs _ _ _ _
    · exact .nothing
  | inputs =>
    show e.Does (e.inputsJob v).1.cameraPending (e.inputsJob v).2
    unfold inputsJob
    split
    · next hf =>
      rw [attempt_eq]
      exact .inputs hs hf v _
    · exact .nothing
  | receive =>
    obtain ⟨_, _, hr⟩ := e.receiveJob_eq
    have hp : e.receiveJob.1.cameraPending = e.cameraPending := by rw [hr]
    show e.Does e.receiveJob.1.cameraPending e.receiveJob.2
    rw [hp]
    unfold receiveJob
    split
    · exact .nothing
    · next hw =>
      have h := receiveStatus_actions hw
      dsimp only
      split <;> exact h ▸ .look hw
    · next hw =>
      have h := receiveFrame_actions hw
      dsimp only
      split <;> exact h ▸ .read hw

theorem tick_does (e : Engine) (now : Millis) (v : Vehicle) (connected : Bool) :
    e.Does (e.tick now v connected).1.cameraPending (e.tick now v connected).2.actions := by
  cases hs : e.state with
  | disabled =>
    rw [tick_of_disabled hs]
    exact .nothing
  | searching =>
    have hp : (e.searchStep now).1.cameraPending = e.cameraPending := by
      obtain ⟨_, _, _, _, _, _, h⟩ := e.searchUpdate_searchStep now
      rw [h]
    simp only [tick, hs]
    rw [hp]
    exact searchStep_does hs now
  | found =>
    have hn := e.sendNotices_eq connected
    simp only [tick, hs]
    generalize (e.sendNotices connected).1 = d at hn ⊢
    have hd : d.Does (d.jobStep now v).1.cameraPending (d.jobStep now v).2 := by
      have hf : d.state = .found := by rw [hn]; exact hs
      unfold jobStep
      dsimp only
      split
      · exact .nothing
      · have hj (j : Job) := runJob_does (e := { d with rotation := (d.rotation.poll now).1 }) hf v j
        exact (hj _).congr rfl rfl rfl rfl
    exact hd.congr (by rw [hn]; rfl) (by rw [hn]; rfl) (by rw [hn]) (by rw [hn])

/-- Nothing is dropped on a bus, and nothing is read from it. -/
theorem Does.silent_on_bus (h : e.Does pending actions) (hw : e.wiring = some .bus) :
    .flush ∉ actions ∧ .receive ∉ actions := by
  have not_serial {p : Prop} : e.wiring = some .serial → p := fun h => nomatch hw.symm.trans h
  cases h with
  | read h => exact not_serial h
  | askVersion _ h => exact not_serial h
  | request hs ha hc =>
    cases ha with
    | yes h => exact not_serial h
    | no => cases hc <;> simp
  | _ => simp

end Engine

end GimbalLink
