import GimbalLink.Proofs.Checksum.Errors
import GimbalLink.Proofs.Frame.Residue
/-
  Frames that were damaged on the way.

  Errors from the command on leave the framing as it was: a receiver still reads as many
  bytes as the frame has, and judges them at the last one. It accepts them just if all that
  the checksum covers, and the checksum behind it, empty the register. The frame itself
  does that, so what is left is the remainder of the errors.

  What is proved:
    1. `extend_corrupt`: what damaged bytes leave in the register is what the errors alone
       leave in an empty one.
    2. `run_feed_corrupt`: a receiver refuses the damaged frame at its last byte, and is idle
       again, if the errors are an odd number of bits, or two bits, or all in two bytes
       side by side.
-/
namespace GimbalLink

/-- Bytes with errors: a bit is changed where the errors have one set. -/
def corrupt (bs e : Bytes) : Bytes := List.zipWith (· ^^^ ·) bs e

theorem length_corrupt {bs e : Bytes} (h : bs.length = e.length) :
    (corrupt bs e).length = bs.length := by
  rw [corrupt, List.length_zipWith, ← h, Nat.min_self]

namespace Frame

open Checksum

/-- The part of a frame on the wire that tells where the frame ends. -/
def framing (f : Frame) : Bytes := f.toBytes.take 2

/-- The rest of a frame on the wire, from the command on. -/
def content (f : Frame) : Bytes := f.toBytes.drop 2

theorem framing_eq (f : Frame) : f.framing = [f.start.toByte, f.lengthByte] := rfl

theorem content_eq (f : Frame) : f.content = f.command :: f.body := rfl

theorem length_content (f : Frame) : f.content.length = f.lengthByte.toNat + 3 := by
  rw [content_eq, List.length_cons, length_body]
  rfl

/-- A whole frame empties the register. -/
theorem extend_content (f : Frame) : extend (step seed f.lengthByte) f.content = 0 := by
  rw [← extend_cons]
  exact f.checksum_tail_toBytes

theorem extend_corrupt (f : Frame) {e : Bytes} (he : e.length = f.content.length) :
    extend (step seed f.lengthByte) (corrupt f.content e) = extend 0 e := by
  calc extend (step seed f.lengthByte) (corrupt f.content e)
      = extend (step seed f.lengthByte ^^^ 0) (corrupt f.content e) := by rw [UInt16.xor_zero]
    _ = extend (step seed f.lengthByte) f.content ^^^ extend 0 e := extend_xor _ _ he.symm
    _ = extend 0 e := by rw [extend_content, UInt16.zero_xor]

end Frame

namespace Receiver

open Checksum

variable {filter : StartFilter}

/-- A body that does not empty the register is refused. -/
theorem verify_of_extend_ne_zero {start : StartByte} {length command : UInt8} {body : Bytes}
    (hl : length.toNat ≤ maxPayload) (hb : body.length = length.toNat + checksumSize)
    (hne : extend (step seed length) (command :: body) ≠ 0) :
    verify start length command body = (.idle, .rejected .checksumMismatch) := by
  rw [← extend_cons] at hne
  rw [verify_eq_residue hl hb]
  exact if_neg hne

/-- A frame that errors of these kinds have changed, from the command on, is refused at its
last byte and not before, and the receiver is idle again. -/
theorem run_feed_corrupt (f : Frame) (h : filter.accept f.start.toByte = some f.start) {e : Bytes}
    (he : e.length = f.content.length) (hne : ∃ b ∈ e, b ≠ 0)
    (hk : weight e % 2 = 1 ∨ weight e = 2 ∨ InTwoBytes e) :
    run feed (ofFilter filter) (f.framing ++ corrupt f.content e) =
      (ofFilter filter, List.replicate (f.size - 1) .more ++ [.rejected .checksumMismatch]) := by
  have hl := f.lengthByte_le
  have hlen : (corrupt f.content e).length = f.lengthByte.toNat + 3 := by
    rw [length_corrupt he.symm, f.length_content]
  obtain ⟨command, body, hc⟩ := List.exists_cons_of_length_eq_add_one hlen
  have hb : body.length = f.lengthByte.toNat + checksumSize := by
    rw [hc, List.length_cons] at hlen
    exact Nat.succ.inj hlen
  have hshort : e.length < maxFrame := by
    rw [he, f.length_content, maxFrame, headerSize, checksumSize]
    omega
  have hv : verify f.start f.lengthByte command body = (.idle, .rejected .checksumMismatch) := by
    apply verify_of_extend_ne_zero hl hb
    rw [← hc, f.extend_corrupt he]
    exact extend_ne_zero hshort hne hk
  have hsize : body.length + 2 = f.size - 1 := by
    rw [hb, f.toNat_lengthByte, Frame.size, headerSize]
    omega
  calc run feed (ofFilter filter) (f.framing ++ corrupt f.content e)
      = run feed (ofFilter filter) (f.start.toByte :: f.lengthByte :: command :: body) := by
        rw [hc, f.framing_eq]
        rfl
    _ = (ofFilter filter,
        List.replicate (f.size - 1) .more ++ [.rejected .checksumMismatch]) := by
      rw [run_feed_framed h hl command hb, hv, hsize]
      rfl

/-- An answer with three bytes of payload. -/
def shortAnswer : Frame where
  start := .device
  command := 0x06
  payload := [1, 2, 3]

/-- Four bits are changed, in the last byte of the payload and the first of the checksum. -/
def straddlingError : Bytes := [0, 0, 0, 0x81, 0x03, 0]

theorem run_feed_corrupt_straddling :
    (StartFilter.device.accept shortAnswer.start.toByte = some shortAnswer.start ∧
      straddlingError.length = shortAnswer.content.length ∧ (∃ b ∈ straddlingError, b ≠ 0) ∧
      InTwoBytes straddlingError) ∧
    run feed (ofFilter .device) (shortAnswer.framing ++ corrupt shortAnswer.content straddlingError) =
      (ofFilter .device,
        List.replicate (shortAnswer.size - 1) .more ++ [.rejected .checksumMismatch]) := by
  have ha : StartFilter.device.accept shortAnswer.start.toByte = some shortAnswer.start := rfl
  have hl : straddlingError.length = shortAnswer.content.length := by
    rw [Frame.length_content]
    rfl
  have hne : ∃ b ∈ straddlingError, b ≠ 0 := ⟨0x03, by decide, by decide⟩
  have htwo : InTwoBytes straddlingError := ⟨3, 0x81, 0x03, 1, rfl⟩
  exact ⟨⟨ha, hl, hne, htwo⟩, run_feed_corrupt shortAnswer ha hl hne (.inr (.inr htwo))⟩

end Receiver

end GimbalLink
