import GimbalLink.Channel.Link
import GimbalLink.Message.Answer
import GimbalLink.Pointing.Pointer
import GimbalLink.Timing.Rotation
import GimbalLink.Timing.Search
/-
  The link engine of one gimbal: what it remembers, and what is asked of it between
  its ticks.

  What is proved: an engine without a channel is disabled from the start
  (`state_new_none`), and a disabled engine sends nothing (`send_of_disabled`).
-/
namespace GimbalLink

structure Engine where
  /-- The channel, if there is one. -/
  link : Option Link
  settings : Settings
  search : Search
  rotation : Rotation
  pointer : Pointer
  telemetry : Telemetry
  /-- The firmware's identification, learnt while searching on the serial channel. -/
  version : Option VersionInfo
  /-- The number of the next status broadcast. -/
  sequence : UInt8
  /-- A picture is to be taken. -/
  cameraPending : Bool
  /-- The gimbal is to be announced to the operator. -/
  bannerPending : Bool
  deriving DecidableEq

namespace Engine

/-- An engine at its start. Without a channel it is disabled and stays so. -/
def new (channel : Option Channel) (settings : Settings) : Engine where
  link := channel.map .new
  settings
  search := if channel.isSome then .new settings.searchLimit.toNat else .withoutChannel
  rotation := .new
  pointer := .new settings
  telemetry := .new
  version := none
  sequence := 0
  cameraPending := false
  bannerPending := false

def state (e : Engine) : SearchState := e.search.state

/-- The kind of the channel that the engine is wired to. -/
def wiring (e : Engine) : Option ChannelKind := e.link.map (·.channel.kind)

/-- The kind of the channel in use; none once the engine is disabled. -/
def kind (e : Engine) : Option ChannelKind := if e.state = .disabled then none else e.wiring

/-- What happens to the channel while the engine is not looking. -/
def mapChannel (e : Engine) (f : Channel → Channel) : Engine :=
  { e with link := e.link.map fun l => { l with channel := f l.channel } }

/-! ## Settings at run time -/

/-- Changes the mode, once the gimbal has been found. -/
def setMode (e : Engine) (mode : Mode) : Engine :=
  if e.state = .found then { e with pointer := e.pointer.setMode mode } else e

def setExternal (e : Engine) (a : Angles) : Engine :=
  { e with pointer := e.pointer.setExternal a }

def setInterest (e : Engine) (l : Location) : Engine :=
  { e with pointer := e.pointer.setInterest l }

/-- Has a picture taken at the next request. -/
def triggerCamera (e : Engine) : Engine := { e with cameraPending := true }

/-- Has the gimbal announced at the next tick. -/
def requestBanner (e : Engine) : Engine := { e with bannerPending := true }

/-! ## Telemetry -/

/-- The orientation, if it is new since the last time. -/
def takeUpdate (e : Engine) : Engine × Option Orientation :=
  let (telemetry, o) := e.telemetry.takeUpdate
  ({ e with telemetry }, o)

/-! ## Sending -/

def send (e : Engine) (c : Command) (priority : Priority) : Engine × Except SendError Nat :=
  if e.state = .disabled then (e, .error .unavailable)
  else
    match e.link with
    | none => (e, .error .unavailable)
    | some link =>
      let (link, result) := link.send c priority
      ({ e with link := some link }, result)

/-- Tells the gimbal where home is; without a place, that there is none. -/
def sendHome (e : Engine) (place : Option Location) : Engine × Except SendError Nat :=
  let place := (place.map fun l => ⟨l, locationValid⟩).getD default
  e.send (.setHome place) .normal

/-- Tells the gimbal where its target is. -/
def sendTarget (e : Engine) (place : Location) : Engine × Except SendError Nat :=
  e.send (.setTarget ⟨place, locationValid⟩) .normal

theorem state_new_none (s : Settings) : (new none s).state = .disabled := rfl

theorem send_of_disabled {e : Engine} (h : e.state = .disabled) (c : Command)
    (priority : Priority) : e.send c priority = (e, .error .unavailable) := if_pos h

end Engine

end GimbalLink
