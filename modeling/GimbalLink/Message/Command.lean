import GimbalLink.Flags
import GimbalLink.Navigation
import GimbalLink.Message.Channels
import GimbalLink.Frame.Basic
/-
  Commands to the gimbal.

  The catalogue is fixed: each command has one code and one payload length.
-/
namespace GimbalLink

/-- Fields of the live data. -/
abbrev LiveFields := FlagSet (0x3001#16)

namespace LiveFields

/-- The gimbal's own attitude. -/
def attitude : LiveFields := ⟨0x1000#16⟩

/-- The status block. -/
def status : LiveFields := ⟨0x2000#16⟩

/-- What is asked for in every cycle, and what an answer can be read with. -/
def request : LiveFields := status.union attitude

end LiveFields

/-- Bits of the status broadcast. -/
abbrev LinkFlags := FlagSet (0xcf#8)

namespace LinkFlags

def healthy : LinkFlags := ⟨0x01#8⟩

def initialised : LinkFlags := ⟨0x02#8⟩

/-- The fix tells an altitude. -/
def fix : LinkFlags := ⟨0x04#8⟩

def horizontalVelocity : LinkFlags := ⟨0x08#8⟩

def armed : LinkFlags := ⟨0x40#8⟩

/-- Always set: the sender is a flight stack. -/
def flightStack : LinkFlags := ⟨0x80#8⟩

end LinkFlags

/-- A place as it is sent, with a word that says whether it is valid. -/
structure SentLocation where
  location : Location
  status : UInt16
  deriving DecidableEq, Inhabited

/-- The status of a valid place. -/
def locationValid : UInt16 := 1

/-- The flight stack's status broadcast. -/
structure LinkStatus where
  /-- Counts the broadcasts, modulo 256. -/
  sequence : UInt8
  flags : LinkFlags
  yawRate : Int16
  attitude : Quaternion
  velocity : Velocity
  deriving DecidableEq

/-! Codes of commands and of the answers to them. -/

namespace Code

def version : UInt8 := 0x02
def liveData : UInt8 := 0x06
def camera : UInt8 := 0x0f
def angles : UInt8 := 0x11
def pulses : UInt8 := 0x12
def inputs : UInt8 := 0x16
def home : UInt8 := 0x17
def target : UInt8 := 0x18
def status : UInt8 := 0xda

end Code

inductive Command where
  /-- Asks for the firmware version, name and board. -/
  | getVersion
  /-- Asks for some fields of the live data. -/
  | getLiveData (fields : LiveFields)
  | camera (action : UInt8)
  /-- Points at angles in degrees. -/
  | setAngles (pitch roll yaw : Binary32) (flags kind : UInt8)
  /-- Points at raw pulse widths; three zeros recentre the gimbal. -/
  | setPulses (pitch roll yaw : UInt16)
  /-- Forwards the pilot's channels. -/
  | setInputs (channels : ChannelBlock) (status : UInt8)
  | setHome (place : SentLocation)
  | setTarget (place : SentLocation)
  | linkStatus (status : LinkStatus)
  deriving DecidableEq

/-- The camera action that takes a picture. -/
def takePicture : UInt8 := 1

namespace Command

/-- The command that clears the gimbal's remote target. -/
def recenter : Command := .setPulses 0 0 0

def code : Command → UInt8
  | getVersion => Code.version
  | getLiveData _ => Code.liveData
  | camera _ => Code.camera
  | setAngles .. => Code.angles
  | setPulses .. => Code.pulses
  | setInputs .. => Code.inputs
  | setHome _ => Code.home
  | setTarget _ => Code.target
  | linkStatus _ => Code.status

/-- The payload's length in the catalogue. -/
def payloadSize : Command → Nat
  | getVersion => 0
  | getLiveData _ => 2
  | camera _ => 6
  | setAngles .. => 14
  | setPulses .. => 6
  | setInputs .. => packedSize + 1
  | setHome _ => 14
  | setTarget _ => 14
  | linkStatus _ => 33

end Command

end GimbalLink
