import GimbalLink.Message.Command
/-
  Command payloads.

  Words stand low byte first. `Command.payload` writes a payload and
  `Command.reader?` reads it; a frame is a command only if its payload has exactly
  the layout of its code.

  What is proved: each composite field is read back from its bytes
  (`reads_sentLocation`, `reads_linkStatus`), and a payload has the length that the
  catalogue states (`length_payload`), so every command makes a frame
  (`toFrame_eq_ok`).
-/
namespace GimbalLink

/-! ## Fields on the wire -/

namespace Binary32

def toBytes (x : Binary32) : Bytes := word32 x.bits

end Binary32

namespace Quaternion

def toBytes (q : Quaternion) : Bytes := q.w.toBytes ++ q.x.toBytes ++ q.y.toBytes ++ q.z.toBytes

end Quaternion

namespace Velocity

def toBytes (v : Velocity) : Bytes := v.north.toBytes ++ v.east.toBytes ++ v.down.toBytes

end Velocity

namespace SentLocation

def toBytes (p : SentLocation) : Bytes :=
  word32 p.location.latitude.toUInt32 ++ word32 p.location.longitude.toUInt32 ++
    word32 p.location.altitude.toUInt32 ++ word16 p.status

end SentLocation

namespace LinkStatus

/-- The byte behind the flags is not used. -/
def toBytes (s : LinkStatus) : Bytes :=
  s.sequence :: UInt8.ofBitVec s.flags.bits :: 0 ::
    (word16 s.yawRate.toUInt16 ++ s.attitude.toBytes ++ s.velocity.toBytes)

end LinkStatus

namespace Reader

def binary32 : Reader Binary32 := do return ⟨← word32⟩

def quaternion : Reader Quaternion := do
  return ⟨← binary32, ← binary32, ← binary32, ← binary32⟩

def velocity : Reader Velocity := do return ⟨← binary32, ← binary32, ← binary32⟩

def location : Reader Location := do
  return ⟨(← word32).toInt32, (← word32).toInt32, (← word32).toInt32⟩

def sentLocation : Reader SentLocation := do return ⟨← location, ← word16⟩

def linkStatus : Reader LinkStatus := do
  let sequence ← byte
  let flags ← byte
  let _ ← byte
  let yawRate ← word16
  return ⟨sequence, ⟨flags.toBitVec⟩, yawRate.toInt16, ← quaternion, ← velocity⟩

theorem reads_binary32 (x : Binary32) : Reads binary32 x.toBytes x := (reads_word32 x.bits).map _

theorem reads_quaternion (q : Quaternion) : Reads quaternion q.toBytes q := by
  have h : Reads quaternion _ q := (reads_binary32 q.w).bind ((reads_binary32 q.x).bind
    ((reads_binary32 q.y).bind ((reads_binary32 q.z).bind (.pure' _))))
  simpa only [Quaternion.toBytes, List.append_assoc, List.append_nil] using h

theorem reads_velocity (v : Velocity) : Reads velocity v.toBytes v := by
  have h : Reads velocity _ v := (reads_binary32 v.north).bind ((reads_binary32 v.east).bind
    ((reads_binary32 v.down).bind (.pure' _)))
  simpa only [Velocity.toBytes, List.append_assoc, List.append_nil] using h

theorem reads_sentLocation (p : SentLocation) : Reads sentLocation p.toBytes p := by
  have h : Reads sentLocation _ p := Reads.bind
    ((reads_word32 p.location.latitude.toUInt32).bind
      ((reads_word32 p.location.longitude.toUInt32).bind
        ((reads_word32 p.location.altitude.toUInt32).bind (.pure' _))))
    ((reads_word16 p.status).bind (.pure' _))
  simpa only [SentLocation.toBytes, List.append_assoc, List.append_nil] using h

theorem reads_linkStatus (s : LinkStatus) : Reads linkStatus s.toBytes s := by
  have h : Reads linkStatus _ s := (reads_byte s.sequence).bind
    ((reads_byte (UInt8.ofBitVec s.flags.bits)).bind ((reads_byte 0).bind
      ((reads_word16 s.yawRate.toUInt16).bind ((reads_quaternion s.attitude).bind
        ((reads_velocity s.velocity).bind (.pure' _))))))
  simpa only [LinkStatus.toBytes, List.singleton_append, List.append_assoc, List.append_nil] using h

end Reader

/-! ## Payloads -/

namespace Command

def payload : Command → Bytes
  | getVersion => []
  | getLiveData fields => word16 (UInt16.ofBitVec fields.bits)
  | camera action => [0, action, 0, 0, 0, 0]
  | setAngles pitch roll yaw flags kind =>
    pitch.toBytes ++ roll.toBytes ++ yaw.toBytes ++ [flags, kind]
  | setPulses pitch roll yaw => word16 pitch ++ word16 roll ++ word16 yaw
  | setInputs channels status => packChannels channels ++ [status]
  | setHome place => place.toBytes
  | setTarget place => place.toBytes
  | linkStatus status => status.toBytes

/-- The layout that belongs to a code. Of the camera's payload only the action is
looked at. -/
def reader? (code : UInt8) : Option (Reader Command) :=
  if code = Code.version then some (pure getVersion)
  else if code = Code.liveData then some do
    return getLiveData ⟨(← Reader.word16).toBitVec⟩
  else if code = Code.camera then some do
    return camera ((← Reader.take 6).getD 1 0)
  else if code = Code.angles then some do
    return setAngles (← Reader.binary32) (← Reader.binary32) (← Reader.binary32)
      (← Reader.byte) (← Reader.byte)
  else if code = Code.pulses then some do
    return setPulses (← Reader.word16) (← Reader.word16) (← Reader.word16)
  else if code = Code.inputs then some do
    return setInputs (unpackChannels (← Reader.take packedSize)) (← Reader.byte)
  else if code = Code.home then some do return setHome (← Reader.sentLocation)
  else if code = Code.target then some do return setTarget (← Reader.sentLocation)
  else if code = Code.status then some do return linkStatus (← Reader.linkStatus)
  else none

def toFrame (c : Command) (start : StartByte) : Except FrameError Frame :=
  Frame.make start c.code c.payload

/-- Reads a command frame. The payload must have exactly the layout of its code. -/
def ofFrame (f : Frame) : Except FrameError Command :=
  match reader? f.command with
  | none => .error .unexpectedCommand
  | some reader =>
    match reader.exactly f.payload with
    | some c => .ok c
    | none => .error .malformed

end Command

/-! ## Lengths -/

@[simp] theorem Binary32.length_toBytes (x : Binary32) : x.toBytes.length = 4 := length_word32 _

@[simp] theorem SentLocation.length_toBytes (p : SentLocation) : p.toBytes.length = 14 := by
  simp [SentLocation.toBytes]

@[simp] theorem LinkStatus.length_toBytes (s : LinkStatus) : s.toBytes.length = 33 := by
  simp [LinkStatus.toBytes, Quaternion.toBytes, Velocity.toBytes]

namespace Command

@[simp] theorem length_payload (c : Command) : c.payload.length = c.payloadSize := by
  cases c <;> simp [payload, payloadSize]

theorem payloadSize_le (c : Command) : c.payloadSize ≤ maxPayload := by
  cases c <;> simp [payloadSize, maxPayload, packedSize, channelCount, channelBits]

theorem toFrame_eq_ok (c : Command) (start : StartByte) :
    c.toFrame start = .ok ⟨start, c.code, c.payload, by
      rw [length_payload]; exact c.payloadSize_le⟩ :=
  dif_pos _

end Command

end GimbalLink
