import GimbalLink.Message.CommandLayout
import GimbalLink.Message.IdText
/-
  Answers from the gimbal.

  Two are read: the version texts and the live data. An answer carries the code of
  the command it belongs to. Live data begins with a word of flags that says which
  parts follow; with a flag that has no known part the rest could not be told apart,
  so such an answer is refused.

  What is proved: both answers fit a frame (`VersionInfo.toFrame_eq_ok`,
  `LiveData.toFrame_eq_ok`).
-/
namespace GimbalLink

/-! ## Version -/

/-- The firmware's identification. -/
structure VersionInfo where
  version : IdText
  name : IdText
  board : IdText
  deriving DecidableEq, Inhabited

namespace VersionInfo

/-- Three fields. -/
def payloadSize : Nat := 3 * idFieldSize

def payload (v : VersionInfo) : Bytes := v.version.toField ++ v.name.toField ++ v.board.toField

def toFrame (v : VersionInfo) : Except FrameError Frame :=
  Frame.make .device Code.version v.payload

/-- The three fields at the front of a payload. -/
def ofPayload (payload : Bytes) : VersionInfo where
  version := .ofField (payload.take idFieldSize)
  name := .ofField ((payload.drop idFieldSize).take idFieldSize)
  board := .ofField ((payload.drop (2 * idFieldSize)).take idFieldSize)

/-- Reads a version answer; bytes behind the three fields are ignored. -/
def ofFrame (f : Frame) : Except FrameError VersionInfo := do
  f.expect Code.version
  if f.payload.length < payloadSize then throw .malformed
  return ofPayload f.payload

@[simp] theorem length_payload (v : VersionInfo) : v.payload.length = payloadSize := by
  simp [payload, payloadSize, idFieldSize]

theorem toFrame_eq_ok (v : VersionInfo) :
    v.toFrame = .ok ⟨.device, Code.version, v.payload, by rw [length_payload]; decide⟩ :=
  dif_pos _

end VersionInfo

/-! ## Live data -/

/-- The gimbal's attitude in its own sign convention, in degrees. -/
structure LiveAttitude where
  pitch : Binary32
  roll : Binary32
  yaw : Binary32
  deriving DecidableEq

/-- The gimbal's status block. -/
structure LiveStatus where
  state : UInt16
  status : UInt16
  status2 : UInt16
  errors : UInt16
  /-- In millivolts. -/
  voltage : UInt16
  deriving DecidableEq

/-- States in which the gimbal operates normally: levelled, or levelling fast. -/
def isNormalState (state : UInt16) : Bool := state == 6 || state == 7

def LiveStatus.isNormal (s : LiveStatus) : Bool := isNormalState s.state

structure LiveData where
  /-- The parts that the answer says it holds. -/
  flags : LiveFields
  attitude : Option LiveAttitude
  status : Option LiveStatus
  deriving DecidableEq

namespace Reader

def liveAttitude : Reader LiveAttitude := do return ⟨← binary32, ← binary32, ← binary32⟩

def liveStatus : Reader LiveStatus := do
  return ⟨← word16, ← word16, ← word16, ← word16, ← word16⟩

/-- A part that is there only if its flag is set. -/
def ifPresent {α : Type} (present : Bool) (r : Reader α) : Reader (Option α) :=
  if present then some <$> r else pure none

end Reader

namespace LiveAttitude

def toBytes (a : LiveAttitude) : Bytes := a.pitch.toBytes ++ a.roll.toBytes ++ a.yaw.toBytes

end LiveAttitude

namespace LiveStatus

def toBytes (s : LiveStatus) : Bytes :=
  word16 s.state ++ word16 s.status ++ word16 s.status2 ++ word16 s.errors ++ word16 s.voltage

end LiveStatus

namespace LiveData

/-- The flags whose parts can be read. -/
def supported : LiveFields := LiveFields.request

/-- The flags of the parts that are there. -/
def presentFlags (d : LiveData) : LiveFields :=
  .ofList [(LiveFields.attitude, d.attitude.isSome), (LiveFields.status, d.status.isSome)]

def payload (d : LiveData) : Bytes :=
  word16 (UInt16.ofBitVec d.presentFlags.bits) ++
    (d.attitude.map LiveAttitude.toBytes).getD [] ++ (d.status.map LiveStatus.toBytes).getD []

/-- The answer as the gimbal sends it: its flags are those of the parts that are there. -/
def toFrame (d : LiveData) : Except FrameError Frame :=
  Frame.make .device Code.liveData d.payload

/-- The flags, then the part of each flag from the lowest flag up. -/
def reader : Reader LiveData := do
  let flags : LiveFields := ⟨(← Reader.word16).toBitVec⟩
  guard (supported.contains flags)
  let attitude ← Reader.ifPresent (flags.contains LiveFields.attitude) Reader.liveAttitude
  let status ← Reader.ifPresent (flags.contains LiveFields.status) Reader.liveStatus
  return ⟨flags, attitude, status⟩

def ofFrame (f : Frame) : Except FrameError LiveData := do
  f.expect Code.liveData
  match reader.exactly f.payload with
  | some d => return d
  | none => throw .malformed

theorem length_payload_le (d : LiveData) : d.payload.length ≤ 24 := by
  rcases d with ⟨_, _ | a, _ | s⟩ <;>
    simp [payload, LiveAttitude.toBytes, LiveStatus.toBytes]

theorem toFrame_eq_ok (d : LiveData) :
    d.toFrame = .ok ⟨.device, Code.liveData, d.payload,
      Nat.le_trans d.length_payload_le (by decide)⟩ :=
  dif_pos _

end LiveData

/-! ## Either answer -/

inductive Answer where
  | version (info : VersionInfo)
  | liveData (data : LiveData)
  deriving DecidableEq

/-- Reads an answer by its command code. -/
def Answer.ofFrame (f : Frame) : Except FrameError Answer :=
  if f.command = Code.version then Answer.version <$> VersionInfo.ofFrame f
  else if f.command = Code.liveData then Answer.liveData <$> LiveData.ofFrame f
  else .error .unexpectedCommand

end GimbalLink
