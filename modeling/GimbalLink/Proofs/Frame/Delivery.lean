import GimbalLink.Proofs.Frame.Tokens
/-
  Delivery of whole frames.

  What is proved:
    1. `tokenize_toBytes`: a frame on the wire is one event of the stream, at its last
       byte.
    2. `run_feed_toBytes`: fed to a receiver, it is complete with its last byte and not
       before.
    3. `run_serve_flatMap_toBytes`: frames sent one behind the other arrive as they are,
       in order, and nothing else arrives.
    4. `Frame.toBytes_of_checksum`: what is received with its checksum behind it is, byte for
       byte, a frame on the wire.
-/
namespace GimbalLink

variable {filter : StartFilter}

theorem StartByte.ofByte?_toByte (s : StartByte) : ofByte? s.toByte = some s :=
  ofByte?_eq_some_iff.2 rfl

theorem StartFilter.accept_any (s : StartByte) : any.accept s.toByte = some s :=
  s.ofByte?_toByte

theorem StartFilter.toByte_of_accept {filter : StartFilter} {b : UInt8} {start : StartByte}
    (h : filter.accept b = some start) : start.toByte = b := by
  cases filter with
  | any => exact (StartByte.ofByte?_eq_some_iff.1 h).symm
  | device =>
    obtain ⟨hb, -⟩ := Option.filter_eq_some_iff.1 h
    exact (StartByte.ofByte?_eq_some_iff.1 hb).symm

namespace Frame

/-- What follows the command: the payload and the checksum. -/
def body (f : Frame) : Bytes := f.payload ++ word16 (GimbalLink.checksum f.covered)

theorem toBytes_eq (f : Frame) :
    f.toBytes = f.start.toByte :: f.lengthByte :: f.command :: f.body := rfl

theorem length_body (f : Frame) : f.body.length = f.lengthByte.toNat + checksumSize := by
  rw [body, List.length_append, length_word16, toNat_lengthByte]
  rfl

theorem lengthByte_le (f : Frame) : f.lengthByte.toNat ≤ maxPayload :=
  f.toNat_lengthByte ▸ f.length_le

theorem take_body (f : Frame) : f.body.take f.lengthByte.toNat = f.payload := by
  rw [toNat_lengthByte, body, List.take_left]

theorem drop_body (f : Frame) :
    f.body.drop f.lengthByte.toNat = word16 (GimbalLink.checksum f.covered) := by
  rw [toNat_lengthByte, body, List.drop_left]

/-- A body whose last two bytes are the checksum of what stands before them is, behind its start
byte, a frame on the wire. -/
theorem toBytes_of_checksum {start : StartByte} {length command : UInt8} {body : Bytes}
    (hl : length.toNat ≤ maxPayload) (hb : body.length = length.toNat + checksumSize)
    (hsum : body.drop length.toNat =
      word16 (GimbalLink.checksum (length :: command :: body.take length.toNat))) :
    (⟨start, command, body.take length.toNat,
      Nat.le_trans (List.length_take_le _ _) hl⟩ : Frame).toBytes =
      start.toByte :: length :: command :: body := by
  have hpayload : (body.take length.toNat).length = length.toNat :=
    List.length_take_of_le (by omega)
  have hlength : UInt8.ofNat (body.take length.toNat).length = length := by
    rw [hpayload, UInt8.ofNat_toNat]
  simp only [toBytes, covered, lengthByte, hlength, List.cons_append]
  rw [← hsum, List.take_append_drop]

theorem judge_body (f : Frame) :
    judge f.start f.lengthByte f.command f.body f.lengthByte_le = .completed (some f) := by
  simp only [judge, take_body, drop_body]
  exact if_pos rfl

theorem verify_body (f : Frame) :
    Receiver.verify f.start f.lengthByte f.command f.body = (.ready f, .complete) := by
  simp only [Receiver.verify_eq f.lengthByte_le f.length_body, take_body, drop_body]
  exact if_pos rfl

end Frame

theorem tokenize_toBytes (f : Frame) (h : filter.accept f.start.toByte = some f.start)
    (rest : Bytes) :
    tokenize filter (f.toBytes ++ rest) =
      List.replicate (f.size - 1) none ++ some (.completed (some f)) :: tokenize filter rest := by
  have hn : f.body.length + 2 = f.size - 1 := by
    rw [f.length_body, f.toNat_lengthByte, Frame.size, headerSize]
    omega
  rw [f.toBytes_eq, tokenize_body h f.lengthByte_le f.command f.length_body, f.judge_body, hn]

theorem filterMap_tokenize_flatMap (fs : List Frame)
    (h : ∀ f ∈ fs, filter.accept f.start.toByte = some f.start) :
    (tokenize filter (fs.flatMap Frame.toBytes)).filterMap id =
      fs.map fun f => .completed (some f) := by
  induction fs with
  | nil =>
    rw [List.flatMap_nil, tokenize]
    rfl
  | cons f rest ih =>
    have hi := ih fun g hg => h g (List.mem_cons_of_mem f hg)
    have hn : (List.replicate (f.size - 1) (none : Option Event)).filterMap id = [] :=
      List.filterMap_eq_nil_iff.2 fun e he => List.eq_of_mem_replicate he
    rw [List.flatMap_cons, tokenize_toBytes f (h f List.mem_cons_self), List.filterMap_append, hn,
      List.nil_append, List.filterMap_cons, hi]
    rfl

/-! ## Through a receiver -/

namespace Receiver

theorem run_feed_body {start : StartByte} {length command : UInt8} (hl : length.toNat ≤ maxPayload)
    (body more : Bytes) (hb : body.length + more.length < length.toNat + checksumSize) :
    run feed ⟨filter, .awaitPayload start length command body⟩ more =
      (⟨filter, .awaitPayload start length command (body ++ more)⟩,
        List.replicate more.length .more) := by
  induction more generalizing body with
  | nil => rw [List.append_nil]; rfl
  | cons b rest ih =>
    rw [List.length_cons] at hb
    have hm : body.length + 1 < length.toNat + checksumSize := by omega
    have hi := ih (body ++ [b]) (by rw [List.length_append, List.length_singleton]; omega)
    simp only [run, feed_body hl (show body.length < length.toNat + checksumSize by omega),
      if_pos hm, hi]
    rw [List.append_assoc]
    rfl

theorem run_feed_header {b length : UInt8} {start : StartByte} (h : filter.accept b = some start)
    (hl : length.toNat ≤ maxPayload) (command : UInt8) :
    run feed (ofFilter filter) [b, length, command] =
      (⟨filter, .awaitPayload start length command []⟩, [.more, .more, .more]) := by
  have ho : ¬bufferSize < length.toNat + checksumSize := by
    simp only [bufferSize, checksumSize, maxPayload] at *
    omega
  simp only [run, feed, ofFilter, advance, h, if_neg ho]

/-- A whole frame is judged at its last byte and not before, whatever its body holds. -/
theorem run_feed_framed {b length : UInt8} {start : StartByte} (h : filter.accept b = some start)
    (hl : length.toNat ≤ maxPayload) (command : UInt8) {body : Bytes}
    (hb : body.length = length.toNat + checksumSize) :
    run feed (ofFilter filter) (b :: length :: command :: body) =
      (⟨filter, (verify start length command body).1⟩,
        List.replicate (body.length + 2) .more ++ [(verify start length command body).2]) := by
  -- Only the last byte of the body is fed to a body that is one byte short.
  obtain ⟨front, last, rfl⟩ : ∃ front last, body = front ++ [last] :=
    ⟨_, _, (List.dropLast_concat_getLast (List.ne_nil_of_length_pos (by
      rw [hb]; exact Nat.succ_pos _))).symm⟩
  rw [List.length_append, List.length_singleton] at hb
  have hlast : feed ⟨filter, .awaitPayload start length command front⟩ last =
      (⟨filter, (verify start length command (front ++ [last])).1⟩,
        (verify start length command (front ++ [last])).2) := by
    rw [feed_body hl (by omega), if_neg (by omega)]
  have hbytes : b :: length :: command :: (front ++ [last]) =
      [b, length, command] ++ (front ++ [last]) := rfl
  rw [hbytes, run_append, run_feed_header h hl, run_append,
    run_feed_body hl [] front (by rw [List.length_nil]; omega), List.nil_append]
  simp only [run, hlast, List.length_append, List.length_singleton]
  rfl

/-- A frame is complete with its last byte and not before, and then it waits. -/
theorem run_feed_toBytes (f : Frame) (h : filter.accept f.start.toByte = some f.start) :
    run feed (ofFilter filter) f.toBytes =
      (⟨filter, .ready f⟩, List.replicate (f.size - 1) .more ++ [.complete]) := by
  have hsize : f.body.length + 2 = f.size - 1 := by
    rw [f.length_body, f.toNat_lengthByte, Frame.size, headerSize]
    omega
  rw [f.toBytes_eq, run_feed_framed h f.lengthByte_le f.command f.length_body, f.verify_body, hsize]

theorem run_serve_flatMap_toBytes (fs : List Frame)
    (h : ∀ f ∈ fs, filter.accept f.start.toByte = some f.start) :
    (run serve (ofFilter filter) (fs.flatMap Frame.toBytes)).2.filterMap id =
      fs.map fun f => .completed (some f) := by
  have ht : tokenize filter (fs.flatMap Frame.toBytes) =
      (run serve (ofFilter filter) (fs.flatMap Frame.toBytes)).2 :=
    tokenize_append_of_opens .nothing _
  rw [← ht, filterMap_tokenize_flatMap fs h]

end Receiver

end GimbalLink
