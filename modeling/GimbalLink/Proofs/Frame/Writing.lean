import GimbalLink.Proofs.Frame.Delivery
/-
  Writing a frame into a buffer.

  A frame is written in place, piece by piece, and its checksum is computed over what already
  stands in the buffer. Every piece goes to places of its own, and every access is checked here
  (`copyInto?`, `slice?`); one that leaves the buffer, or a copy to more or fewer places than
  there are bytes, gives nothing. A receiver has no such buffer and adds the checksum up from the
  length, the command and the payload.

  That no access fails is one invariant: the buffer is what has been written so far, and behind it
  what stood there before (`overlay`).

  What is proved:
    1. `copyInto?_overlay`, `slice?_overlay`: the next piece is copied behind what was written, and
       what was written is read back.
    2. `writeInPlace?_eq`, `encodeInPlace?_eq`: a frame can be written into any buffer that is long
       enough, and leaves there its bytes on the wire.
    3. `written_in_place`: for every frame and every buffer, when the frame is refused, what stands
       where when it is not, and that both checksums are the same.
-/
namespace GimbalLink

/-! ## Checked accesses -/

/-- Copies bytes to the places from `lo` up to `hi`, if the buffer has these and there are as many
of them as bytes. -/
def copyInto? (buffer : Bytes) (lo hi : Nat) (bs : Bytes) : Option Bytes :=
  if lo ≤ hi ∧ hi ≤ buffer.length ∧ bs.length = hi - lo then
    some (buffer.take lo ++ bs ++ buffer.drop hi)
  else none

/-- The bytes at the places from `lo` up to `hi`, if the buffer has these. -/
def slice? (buffer : Bytes) (lo hi : Nat) : Option Bytes :=
  if lo ≤ hi ∧ hi ≤ buffer.length then some ((buffer.take hi).drop lo) else none

/-- A buffer with other bytes at its front. -/
def overlay (front buffer : Bytes) : Bytes := front ++ buffer.drop front.length

section Overlay

variable {front bs buffer : Bytes} {lo hi : Nat}

theorem overlay_nil (buffer : Bytes) : overlay [] buffer = buffer := rfl

theorem length_overlay (h : front.length ≤ buffer.length) :
    (overlay front buffer).length = buffer.length := by
  rw [overlay, List.length_append, List.length_drop]
  omega

theorem getElem?_overlay {i : Nat} (h : front.length ≤ i) :
    (overlay front buffer)[i]? = buffer[i]? := by
  rw [overlay, List.getElem?_append_right h, List.getElem?_drop, Nat.add_sub_cancel' h]

/-- The next piece goes behind what has been written. -/
theorem copyInto?_overlay (hlo : front.length = lo) (hhi : lo + bs.length = hi)
    (h : hi ≤ buffer.length) :
    copyInto? (overlay front buffer) lo hi bs = some (overlay (front ++ bs) buffer) := by
  subst hlo hhi
  have hlength : (overlay front buffer).length = buffer.length := length_overlay (by omega)
  have hbehind : (overlay front buffer).drop (front.length + bs.length) =
      buffer.drop (front ++ bs).length := by
    rw [overlay, List.drop_append, List.drop_of_length_le (by omega), List.nil_append,
      List.drop_drop, List.length_append, Nat.add_sub_cancel_left]
  rw [copyInto?, if_pos ⟨by omega, by omega, by omega⟩, hbehind]
  simp only [overlay, List.take_left]

theorem slice?_overlay (hlo : lo ≤ hi) (hhi : hi ≤ front.length) :
    slice? (overlay front buffer) lo hi = some ((front.take hi).drop lo) := by
  have hlength : hi ≤ (overlay front buffer).length := by
    rw [overlay, List.length_append]
    omega
  rw [slice?, if_pos ⟨hlo, hlength⟩, overlay, List.take_append_of_le_length hhi]

end Overlay

namespace Frame

/-- Writes the frame into a buffer, piece by piece. -/
def writeInPlace? (f : Frame) (buffer : Bytes) : Option (Bytes × Except FrameError Nat) :=
  if buffer.length < f.size then some (buffer, .error .bufferTooSmall)
  else do
    let behind := headerSize + f.payload.length
    let buffer ← copyInto? buffer 0 1 [f.start.toByte]
    let buffer ← copyInto? buffer 1 2 [f.lengthByte]
    let buffer ← copyInto? buffer 2 headerSize [f.command]
    let buffer ← copyInto? buffer headerSize behind f.payload
    let covered ← slice? buffer 1 behind
    let buffer ← copyInto? buffer behind f.size (word16 (GimbalLink.checksum covered))
    return (buffer, .ok f.size)

/-- Writes the frame into the longest frame's buffer, and copies it from there to one that holds no
more than that. -/
def encodeInPlace? (f : Frame) : Option (Except FrameError Bytes) := do
  match ← f.writeInPlace? (List.replicate maxFrame 0) with
  | (_, .error e) => return .error e
  | (buffer, .ok size) =>
    let bytes ← slice? buffer 0 size
    if maxFrame < bytes.length then return .error .bufferTooSmall else return .ok bytes

/-- What comes of writing a frame into a buffer. -/
structure Written (f : Frame) (buffer : Bytes) : Prop where
  /-- Written in place, the frame never leaves the buffer. -/
  in_place : f.writeInPlace? buffer = some (f.writeTo buffer)
  refused_iff : f.writeTo buffer = (buffer, .error .bufferTooSmall) ↔ buffer.length < f.size
  /-- The length is what its byte says. -/
  length_told : f.lengthByte.toNat = f.payload.length
  /-- The pieces stand one behind the other, and behind them what stood there before. -/
  written : f.size ≤ buffer.length → f.writeTo buffer =
    ([f.start.toByte, f.lengthByte, f.command] ++ f.payload ++
      [f.checksum.toUInt8, (f.checksum >>> 8).toUInt8] ++ buffer.drop f.size, .ok f.size)
  length_eq : (f.writeTo buffer).1.length = buffer.length
  untouched : ∀ i, f.size ≤ i → (f.writeTo buffer).1[i]? = buffer[i]?
  /-- The checksum over what was written, as one piece, is the one added up from its parts. -/
  checksum_eq : f.size ≤ buffer.length →
    slice? (f.writeTo buffer).1 1 (headerSize + f.payload.length) = some f.covered ∧
      GimbalLink.checksum f.covered = f.checksum
  /-- And it is the one that a receiver asks for. -/
  verified : Receiver.verify f.start f.lengthByte f.command
    (f.payload ++ [f.checksum.toUInt8, (f.checksum >>> 8).toUInt8]) = (.ready f, .complete)
  /-- In bytes of its own the frame is the same. -/
  encoded : ∃ bytes, f.encodeInPlace? = some (.ok bytes) ∧ f.encode = .ok bytes ∧
    bytes.length = f.size ∧ (f.size ≤ buffer.length → (f.writeTo buffer).1.take f.size = bytes)

variable {f : Frame} {buffer : Bytes}

theorem writeTo_of_lt (h : buffer.length < f.size) :
    f.writeTo buffer = (buffer, .error .bufferTooSmall) := if_pos h

theorem writeTo_of_le (h : f.size ≤ buffer.length) :
    f.writeTo buffer = (overlay f.toBytes buffer, .ok f.size) := by
  rw [writeTo, if_neg (Nat.not_lt.2 h), overlay, length_toBytes]

theorem writeTo_refused_iff :
    f.writeTo buffer = (buffer, .error .bufferTooSmall) ↔ buffer.length < f.size := by
  refine ⟨fun h => ?_, writeTo_of_lt⟩
  rcases Nat.lt_or_ge buffer.length f.size with hlt | hle
  · exact hlt
  · rw [writeTo_of_le hle] at h
    cases (Prod.mk.inj h).2

theorem length_writeTo (f : Frame) (buffer : Bytes) :
    (f.writeTo buffer).1.length = buffer.length := by
  rcases Nat.lt_or_ge buffer.length f.size with h | h
  · rw [writeTo_of_lt h]
  · rw [writeTo_of_le h]
    exact length_overlay (by rwa [length_toBytes])

theorem getElem?_writeTo {i : Nat} (hi : f.size ≤ i) :
    (f.writeTo buffer).1[i]? = buffer[i]? := by
  rcases Nat.lt_or_ge buffer.length f.size with h | h
  · rw [writeTo_of_lt h]
  · rw [writeTo_of_le h]
    exact getElem?_overlay (by rwa [length_toBytes])

/-- The start byte, and what the checksum covers. -/
theorem length_header_payload (f : Frame) :
    (f.start.toByte :: f.covered).length = headerSize + f.payload.length := by
  simp only [covered, headerSize, List.length_cons]
  omega

/-- What the checksum covers is read back, whatever stands behind it. -/
theorem slice?_covered (f : Frame) (behind buffer : Bytes) :
    slice? (overlay (f.start.toByte :: f.covered ++ behind) buffer) 1
      (headerSize + f.payload.length) = some f.covered := by
  have hlo : 1 ≤ headerSize + f.payload.length :=
    Nat.le_trans (by decide) (Nat.le_add_right _ _)
  have hhi : headerSize + f.payload.length ≤ (f.start.toByte :: f.covered ++ behind).length := by
    rw [List.length_append, length_header_payload]
    exact Nat.le_add_right _ _
  rw [slice?_overlay hlo hhi, ← length_header_payload, List.take_left]
  rfl

theorem writeInPlace?_eq (f : Frame) (buffer : Bytes) :
    f.writeInPlace? buffer = some (f.writeTo buffer) := by
  by_cases h : buffer.length < f.size
  · rw [writeInPlace?, if_pos h, writeTo_of_lt h]
  · have hfits : f.size ≤ buffer.length := Nat.not_lt.1 h
    have hsize : f.size = 3 + f.payload.length + 2 := rfl
    have hheader : headerSize = 3 := rfl
    -- The front that has been written grows by a piece in each step.
    have hstart : copyInto? (overlay [] buffer) 0 1 [f.start.toByte] =
        some (overlay [f.start.toByte] buffer) := copyInto?_overlay rfl rfl (by omega)
    have hlength : copyInto? (overlay [f.start.toByte] buffer) 1 2 [f.lengthByte] =
        some (overlay [f.start.toByte, f.lengthByte] buffer) := copyInto?_overlay rfl rfl (by omega)
    have hcommand : copyInto? (overlay [f.start.toByte, f.lengthByte] buffer) 2 headerSize
        [f.command] = some (overlay [f.start.toByte, f.lengthByte, f.command] buffer) :=
      copyInto?_overlay rfl rfl (by omega)
    have hpayload : copyInto? (overlay [f.start.toByte, f.lengthByte, f.command] buffer) headerSize
        (headerSize + f.payload.length) f.payload =
          some (overlay (f.start.toByte :: f.covered) buffer) :=
      copyInto?_overlay rfl rfl (by omega)
    have hcovered : slice? (overlay (f.start.toByte :: f.covered) buffer) 1
        (headerSize + f.payload.length) = some f.covered := by
      have hread := f.slice?_covered [] buffer
      rwa [List.append_nil] at hread
    have hchecksum : copyInto? (overlay (f.start.toByte :: f.covered) buffer)
        (headerSize + f.payload.length) f.size (word16 (GimbalLink.checksum f.covered)) =
          some (overlay f.toBytes buffer) :=
      copyInto?_overlay f.length_header_payload (by rw [length_word16]; rfl) hfits
    rw [overlay_nil] at hstart
    rw [writeInPlace?, if_neg h, writeTo_of_le hfits]
    simp only [hstart, hlength, hcommand, hpayload, hcovered, hchecksum, Option.bind_eq_bind,
      Option.bind_some, Option.pure_def]

theorem encodeInPlace?_eq (f : Frame) : f.encodeInPlace? = some f.encode := by
  have hfits : f.size ≤ (List.replicate maxFrame (0 : UInt8)).length := by
    rw [List.length_replicate]
    exact f.size_le
  have hslice : slice? (overlay f.toBytes (List.replicate maxFrame 0)) 0 f.size =
      some f.toBytes := by
    rw [← length_toBytes, slice?_overlay (Nat.zero_le _) (Nat.le_refl _), List.take_length]
    rfl
  have hroom : ¬maxFrame < f.toBytes.length := by
    rw [length_toBytes]
    exact Nat.not_lt.2 f.size_le
  simp only [encodeInPlace?, writeInPlace?_eq, writeTo_of_le hfits, Option.bind_eq_bind,
    Option.bind_some, hslice, if_neg hroom, f.encode_eq_ok, Option.pure_def]

/-- The bytes of a frame on the wire, one after the other. -/
theorem toBytes_eq_pieces (f : Frame) :
    f.toBytes = [f.start.toByte, f.lengthByte, f.command] ++ f.payload ++
      [f.checksum.toUInt8, (f.checksum >>> 8).toUInt8] := by
  rw [toBytes, ← f.checksum_eq, word16_eq]
  rfl

/-- A frame is refused by a buffer that is too short for it, which stays as it is. In every other
buffer its pieces stand at the front, with the checksum that a receiver asks for, and nothing
behind them has changed. -/
theorem written_in_place (f : Frame) (buffer : Bytes) : Written f buffer where
  in_place := writeInPlace?_eq f buffer
  refused_iff := writeTo_refused_iff
  length_told := f.toNat_lengthByte
  written h := by
    rw [writeTo_of_le h, overlay, length_toBytes, toBytes_eq_pieces]
  length_eq := length_writeTo f buffer
  untouched _ := getElem?_writeTo
  checksum_eq h := by
    rw [writeTo_of_le h, toBytes, slice?_covered]
    exact ⟨rfl, f.checksum_eq.symm⟩
  verified := by
    have hbody : f.body = f.payload ++ [f.checksum.toUInt8, (f.checksum >>> 8).toUInt8] := by
      rw [body, ← f.checksum_eq, word16_eq]
    rw [← hbody]
    exact f.verify_body
  encoded := by
    refine ⟨f.toBytes, ?_, f.encode_eq_ok, f.length_toBytes, fun h => ?_⟩
    · rw [encodeInPlace?_eq, encode_eq_ok]
    · rw [writeTo_of_le h]
      exact f.take_size _

end Frame

end GimbalLink
