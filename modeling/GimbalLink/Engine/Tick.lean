import GimbalLink.Engine.Basic
/-
  One tick of the engine.

  While the gimbal is searched for, a tick takes a step of the search. Once it is
  found, a tick first sends the operator's notices and then does the job that is
  due. A disabled engine does nothing.

  A tick reports what it did on the channel, in order, and the texts it sent to the
  operator. A frame that is refused by the channel is dropped; the next cycle sends
  anew.

  What is proved: a disabled engine's tick changes and reports nothing
  (`tick_of_disabled`).
-/
namespace GimbalLink

inductive Severity where
  | error
  | warning
  | notice
  | info
  deriving DecidableEq, Repr

/-- A line of text for the operator. -/
structure OperatorText where
  severity : Severity
  text : String
  deriving DecidableEq

/-- Something done on the channel. -/
inductive Action where
  /-- Dropped what was received. -/
  | flush
  /-- Read what was received. -/
  | receive
  /-- Looked into the inbox. -/
  | takeStatus
  /-- Tried to send a command. -/
  | send (command : Command) (priority : Priority) (result : Except SendError Nat)

/-- What a tick did. -/
structure Report where
  actions : List Action
  texts : List OperatorText

namespace Engine

/-! ## On the channel -/

/-- Sends a command as part of a tick. -/
def attempt (e : Engine) (c : Command) (priority : Priority) : Engine × List Action :=
  let (e, result) := e.send c priority
  (e, [.send c priority result])

def flushLink (e : Engine) : Engine × List Action :=
  ({ e with link := e.link.map Link.flush }, [.flush])

/-- Reads what arrived on the channel, and takes the frame that is complete. -/
def receiveFrame (e : Engine) : Engine × List Action × Option Frame :=
  match e.link with
  | none => (e, [], none)
  | some link =>
    let (link, frame) := link.receive
    ({ e with link := some link }, [.receive], frame)

/-- Takes the status that waits in the inbox. -/
def receiveStatus (e : Engine) : Engine × List Action × Option BusStatus :=
  match e.link with
  | none => (e, [], none)
  | some link =>
    let (channel, status) := link.channel.takeStatus
    ({ e with link := some { link with channel } }, [.takeStatus], status)

def applyStatus (e : Engine) (s : BusStatus) : Engine :=
  { e with telemetry := e.telemetry.applyBus s }

/-! ## Searching -/

/-- The gimbal showed itself. If that ends the search, the cycle of jobs starts over
and the gimbal is announced. -/
def meet (e : Engine) (version : Option VersionInfo) : Engine :=
  let event := if version.isSome then SearchEvent.versionReceived else .broadcastReceived
  let (search, moved) := e.search.handle event
  if moved then
    { e with search, version, rotation := e.rotation.reset, bannerPending := true }
  else e

/-- A step of the search on the bus: the first broadcast is enough. -/
def searchBus (e : Engine) (ready : Bool) (now : Millis) : Engine × List Action :=
  let (search, ended) := e.search.checkLimit now
  let e := { e with search }
  if ended || !ready then (e, [])
  else
    let (e, actions, status) := e.receiveStatus
    match status with
    | none => (e, actions)
    | some s => ((e.applyStatus s).meet none, actions)

/-- A step of the search on the serial channel. -/
def searchSerial (e : Engine) (now : Millis) : Engine × List Action :=
  let (search, step) := e.search.poll now
  let e := { e with search }
  match step with
  | .idle => (e, [])
  | .timedOut => (e, [])
  | .request =>
    let (e, flushed) := e.flushLink
    let (e, sent) := e.attempt .getVersion .normal
    (e, flushed ++ sent)
  | .await =>
    let (e, actions, frame) := e.receiveFrame
    match frame.map VersionInfo.ofFrame with
    | some (.ok version) => (e.meet (some version), actions)
    | _ => (e, actions)

def searchStep (e : Engine) (now : Millis) : Engine × List Action :=
  match e.link with
  | none => (e, [])
  | some link =>
    match link.channel.kind with
    | .bus => e.searchBus link.channel.isReady now
    | .serial => e.searchSerial now

/-! ## Notices -/

def foundText : OperatorText := ⟨.info, "STorM32: found and initialized"⟩

def versionText (v : VersionInfo) : OperatorText :=
  ⟨.info, "STorM32: " ++ v.version.toString ++ ", " ++ v.board.toString⟩

def armedText (armed : Bool) : OperatorText :=
  ⟨.info, if armed then "STorM32: ARMED" else "STorM32: DISARMED"⟩

/-- Announces the gimbal, if that is asked for; the armed state is to follow. -/
def sendBanner (e : Engine) : Engine × List OperatorText :=
  if e.bannerPending then
    ({ e with bannerPending := false, telemetry := e.telemetry.requestNotice },
      foundText :: (e.version.map versionText).toList)
  else (e, [])

/-- Announces the armed state, if that is asked for and someone is listening. -/
def sendArmed (e : Engine) (connected : Bool) : Engine × List OperatorText :=
  if connected then
    let (telemetry, notice) := e.telemetry.takeNotice
    ({ e with telemetry }, if notice then [armedText e.telemetry.armed] else [])
  else (e, [])

def sendNotices (e : Engine) (connected : Bool) : Engine × List OperatorText :=
  let (e, banner) := e.sendBanner
  let (e, armed) := e.sendArmed connected
  (e, banner ++ armed)

/-! ## Jobs -/

/-- The status broadcast of a vehicle. -/
def linkStatus (sequence : UInt8) (v : Vehicle) : LinkStatus where
  sequence
  flags := .ofList [(LinkFlags.flightStack, true), (LinkFlags.healthy, v.healthy),
    (LinkFlags.initialised, v.initialised), (LinkFlags.fix, v.fix.hasAltitude),
    (LinkFlags.horizontalVelocity, v.horizontalVelocity), (LinkFlags.armed, v.armed)]
  yawRate := 0
  attitude := v.attitude
  velocity := v.velocity.getD default

/-- The pilot's channels as they are forwarded; one that is not received is zero. -/
def inputChannels (v : Vehicle) : ChannelBlock :=
  Vector.ofFn fun i => clampChannel ((v.channel i.val).getD 0)

/-- Broadcasts the vehicle's status. The number goes up whether or not the channel
takes the frame. -/
def broadcastJob (e : Engine) (v : Vehicle) : Engine × List Action :=
  if e.settings.features.contains Features.broadcast then
    let status := linkStatus e.sequence v
    attempt { e with sequence := e.sequence + 1 } (.linkStatus status) .highest
  else (e, [])

/-- Asks for live data on the serial channel, dropping what came before. -/
def requestLive (e : Engine) : Engine × List Action :=
  if e.kind = some .serial then
    let (e, flushed) := e.flushLink
    let (e, sent) := e.attempt (.getLiveData LiveFields.request) .normal
    (e, flushed ++ sent)
  else (e, [])

/-- Takes a picture that was asked for. What was asked for is forgotten, whether or
not it goes out. -/
def cameraShot (e : Engine) : Engine × List Action :=
  let wanted := e.cameraPending && e.settings.features.contains Features.camera
  let e := { e with cameraPending := false }
  if wanted then e.attempt (.camera takePicture) .normal else (e, [])

def requestJob (e : Engine) : Engine × List Action :=
  let (e, live) := e.requestLive
  let (e, camera) := e.cameraShot
  (e, live ++ camera)

/-- Resolves the target and sends what there is to send for it. -/
def pointJob (e : Engine) (v : Vehicle) : Engine × List Action :=
  let (pointer, result) := e.pointer.cycle e.settings v
  let e := { e with pointer }
  match result with
  | some (_, some c) => e.attempt c .normal
  | _ => (e, [])

def inputsJob (e : Engine) (v : Vehicle) : Engine × List Action :=
  if e.settings.features.contains Features.inputs then
    e.attempt (.setInputs (inputChannels v) 0) .normal
  else (e, [])

/-- Reads the gimbal's news: a broadcast on the bus, an answer on the serial channel. -/
def receiveJob (e : Engine) : Engine × List Action :=
  match e.wiring with
  | none => (e, [])
  | some .bus =>
    let (e, actions, status) := e.receiveStatus
    match status with
    | none => (e, actions)
    | some s => (e.applyStatus s, actions)
  | some .serial =>
    let (e, actions, frame) := e.receiveFrame
    match frame.map LiveData.ofFrame with
    | some (.ok data) => ({ e with telemetry := (e.telemetry.applyLive data).1 }, actions)
    | _ => (e, actions)

def runJob (e : Engine) (v : Vehicle) : Job → Engine × List Action
  | .broadcast => e.broadcastJob v
  | .request => e.requestJob
  | .point => e.pointJob v
  | .inputs => e.inputsJob v
  | .receive => e.receiveJob

/-- The job that is due, if there is one. -/
def jobStep (e : Engine) (now : Millis) (v : Vehicle) : Engine × List Action :=
  let (rotation, job) := e.rotation.poll now
  let e := { e with rotation }
  match job with
  | none => (e, [])
  | some j => e.runJob v j

/-! ## The tick -/

/-- One tick at a time, with a reading of the vehicle; `connected` tells whether a
ground station is listening. -/
def tick (e : Engine) (now : Millis) (v : Vehicle) (connected : Bool) : Engine × Report :=
  match e.state with
  | .disabled => (e, ⟨[], []⟩)
  | .searching =>
    let (e, actions) := e.searchStep now
    (e, ⟨actions, []⟩)
  | .found =>
    let (e, texts) := e.sendNotices connected
    let (e, actions) := e.jobStep now v
    (e, ⟨actions, texts⟩)

theorem tick_of_disabled {e : Engine} (h : e.state = .disabled) (now : Millis) (v : Vehicle)
    (connected : Bool) : e.tick now v connected = (e, ⟨[], []⟩) := by
  simp only [tick, h]

end Engine

end GimbalLink
