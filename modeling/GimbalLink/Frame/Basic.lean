import GimbalLink.Checksum
/-
  Frames.

  On the wire a frame is a start byte, the payload's length, a command code, the
  payload, and the checksum of all but the start byte, low byte first.

  What is proved:
    1. `length_toBytes`: a frame takes five bytes more than its payload.
    2. `checksum_eq`: the checksum added up from the parts is the one over the
       bytes as they stand on the wire.
    3. `encode_eq_ok`: every frame can be encoded.
-/
namespace GimbalLink

/-- Who a frame comes from, and whether it asks for an acknowledgment. -/
inductive StartByte where
  | noAck
  | ack
  | device
  deriving DecidableEq, Repr

namespace StartByte

def toByte : StartByte → UInt8
  | noAck => 0xf9
  | ack => 0xfa
  | device => 0xfb

def ofByte? (b : UInt8) : Option StartByte :=
  if b = 0xf9 then some noAck
  else if b = 0xfa then some ack
  else if b = 0xfb then some device
  else none

theorem ofByte?_eq_some_iff {b : UInt8} {s : StartByte} : ofByte? b = some s ↔ b = s.toByte := by
  constructor
  · intro h
    unfold ofByte? at h
    split at h
    · next e => cases h; exact e
    · split at h
      · next e => cases h; exact e
      · split at h
        · next e => cases h; exact e
        · cases h
  · rintro rfl
    cases s <;> rfl

end StartByte

/-- Why a frame is refused. -/
inductive FrameError where
  /-- The payload does not fit a frame. -/
  | payloadTooLarge
  /-- The destination is shorter than the frame. -/
  | bufferTooSmall
  /-- The announced length does not fit the receiver's buffer. -/
  | overflow
  /-- The checksum received is not the one computed. -/
  | checksumMismatch
  /-- The payload does not have the layout of its command. -/
  | malformed
  /-- The frame carries another command. -/
  | unexpectedCommand
  deriving DecidableEq, Repr

/-- The longest payload. -/
def maxPayload : Nat := 94

/-- Bytes of a checksum. -/
def checksumSize : Nat := 2

/-- Bytes of start, length and command. -/
def headerSize : Nat := 3

/-- The longest frame. -/
def maxFrame : Nat := headerSize + maxPayload + checksumSize

structure Frame where
  start : StartByte
  command : UInt8
  payload : Bytes
  length_le : payload.length ≤ maxPayload := by decide
  deriving DecidableEq

namespace Frame

/-- A frame around a payload, if it fits. -/
def make (start : StartByte) (command : UInt8) (payload : Bytes) : Except FrameError Frame :=
  if h : payload.length ≤ maxPayload then .ok ⟨start, command, payload, h⟩
  else .error .payloadTooLarge

/-- A frame without a payload. -/
def empty (command : UInt8) : Frame := { start := .noAck, command, payload := [] }

/-- The payload's length as the wire carries it. -/
def lengthByte (f : Frame) : UInt8 := UInt8.ofNat f.payload.length

/-- The bytes that the checksum covers. -/
def covered (f : Frame) : Bytes := f.lengthByte :: f.command :: f.payload

/-- The checksum of a length, a command and a payload, added up part by part. -/
def checksumOf (length command : UInt8) (payload : Bytes) : UInt16 :=
  Checksum.extend (Checksum.step (Checksum.step Checksum.seed length) command) payload

def checksum (f : Frame) : UInt16 := checksumOf f.lengthByte f.command f.payload

/-- The frame on the wire. -/
def toBytes (f : Frame) : Bytes :=
  f.start.toByte :: f.covered ++ word16 (GimbalLink.checksum f.covered)

/-- How many bytes the frame takes on the wire. -/
def size (f : Frame) : Nat := headerSize + f.payload.length + checksumSize

/-- Writes the frame at the front of a buffer. A buffer that is too short stays as it
is, and so do the bytes behind the frame. -/
def writeTo (f : Frame) (buffer : Bytes) : Bytes × Except FrameError Nat :=
  if buffer.length < f.size then (buffer, .error .bufferTooSmall)
  else (f.toBytes ++ buffer.drop f.size, .ok f.size)

/-- The frame in bytes of its own. -/
def encode (f : Frame) : Except FrameError Bytes :=
  match f.writeTo (List.replicate maxFrame 0) with
  | (_, .error e) => .error e
  | (buffer, .ok size) => .ok (buffer.take size)

/-- Refuses a frame with another command. -/
def expect (f : Frame) (command : UInt8) : Except FrameError Unit :=
  if f.command = command then .ok () else .error .unexpectedCommand

/-- Summed part by part or as one piece, the checksum is the same. -/
theorem checksumOf_eq (length command : UInt8) (payload : Bytes) :
    checksumOf length command payload = GimbalLink.checksum (length :: command :: payload) := by
  simp only [checksumOf, GimbalLink.checksum, Checksum.extend, List.foldl_cons]

theorem checksum_eq (f : Frame) : f.checksum = GimbalLink.checksum f.covered :=
  checksumOf_eq f.lengthByte f.command f.payload

theorem toNat_lengthByte (f : Frame) : f.lengthByte.toNat = f.payload.length := by
  have h := f.length_le
  rw [lengthByte, UInt8.toNat_ofNat']
  exact Nat.mod_eq_of_lt (Nat.lt_of_le_of_lt h (by decide))

@[simp] theorem length_toBytes (f : Frame) : f.toBytes.length = f.size := by
  simp only [toBytes, covered, size, headerSize, checksumSize, List.length_cons,
    List.length_append, length_word16]
  omega

theorem size_le (f : Frame) : f.size ≤ maxFrame := by
  have h := f.length_le
  simp only [size, maxFrame, maxPayload] at *
  omega

theorem take_size (f : Frame) (rest : Bytes) : (f.toBytes ++ rest).take f.size = f.toBytes := by
  rw [← length_toBytes]
  exact List.take_left

/-- The longest frame's buffer holds every frame. -/
theorem writeTo_maxFrame (f : Frame) :
    f.writeTo (List.replicate maxFrame 0) =
      (f.toBytes ++ (List.replicate maxFrame 0).drop f.size, .ok f.size) := by
  refine if_neg ?_
  rw [List.length_replicate]
  exact Nat.not_lt.2 f.size_le

theorem encode_eq_ok (f : Frame) : f.encode = .ok f.toBytes := by
  simp only [encode, writeTo_maxFrame, take_size]

end Frame

end GimbalLink
