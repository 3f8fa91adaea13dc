import GimbalLink.Frame.Receiver
import GimbalLink.Run
/-
  A receiver against the stream that it reads.

  An owner feeds a receiver byte by byte, and on every completed frame takes it and
  resets (`Receiver.serve`). `tokenize` says what such an owner should see of a
  stream, without any state: it looks for a start byte, reads the announced length,
  the command and the body as one piece, judges the piece, and goes on behind it.

  What is proved:
    1. `tokenize_append_of_opens`: in a phase that some bytes of an unfinished frame
       have led to, the events still to come are those of the stream that begins with
       these bytes.
    2. `run_serve_eq_tokenize`: from the start, the events of the owner are those of
       the stream, each at the same byte.

  The invariant is `Opens`: which bytes of an unfinished frame lead to which phase.
-/
namespace GimbalLink

/-- What a byte of a stream brings its reader. -/
inductive Event where
  /-- A frame is complete, and this is what was taken. -/
  | completed (taken : Option Frame)
  /-- The frame in progress is dropped. -/
  | rejected (error : FrameError)
  deriving DecidableEq

namespace Receiver

/-- Feeds a byte; a frame that it completes is taken, and the receiver starts over. -/
def serve (r : Receiver) (b : UInt8) : Receiver × Option Event :=
  match r.feed b with
  | (r, .more) => (r, none)
  | (r, .rejected e) => (r, some (.rejected e))
  | (r, .complete) =>
    let (r, frame) := r.take
    (r.reset, some (.completed frame))

end Receiver

/-- The event of a body, which is a payload of the announced length and two bytes of
checksum. -/
def judge (start : StartByte) (length command : UInt8) (body : Bytes)
    (h : length.toNat ≤ maxPayload) : Event :=
  if body.drop length.toNat = word16 (checksum (length :: command :: body.take length.toNat)) then
    .completed (some ⟨start, command, body.take length.toNat,
      Nat.le_trans (List.length_take_le _ _) h⟩)
  else .rejected .checksumMismatch

/-- The events of a stream, one entry for each byte. A frame that the stream does not
bring to its end has none. -/
def tokenize (filter : StartFilter) : Bytes → List (Option Event)
  | [] => []
  | b :: rest =>
    match filter.accept b, rest with
    | none, rest => none :: tokenize filter rest
    | some _, [] => [none]
    | some start, length :: rest =>
      if h : maxPayload < length.toNat then
        none :: some (.rejected .overflow) :: tokenize filter rest
      else
        match rest with
        | [] => [none, none]
        | command :: rest =>
          let size := length.toNat + checksumSize
          if rest.length < size then none :: none :: none :: List.replicate rest.length none
          else
            none :: none :: none :: List.replicate (size - 1) none ++
              some (judge start length command (rest.take size) (Nat.le_of_not_lt h)) ::
                tokenize filter (rest.drop size)
  termination_by bs => bs.length
  decreasing_by
    all_goals
      simp only [List.length_cons, List.length_drop]
      omega

/-! ## Unfinished frames -/

/-- Some bytes of an unfinished frame, and the phase that they lead to. -/
inductive Opens (filter : StartFilter) : Bytes → Phase → Prop where
  | nothing : Opens filter [] .idle
  | start {b : UInt8} {start : StartByte} (h : filter.accept b = some start) :
    Opens filter [b] (.awaitLength start)
  | length {b length : UInt8} {start : StartByte} (h : filter.accept b = some start)
    (hl : length.toNat ≤ maxPayload) : Opens filter [b, length] (.awaitCommand start length)
  | body {b length command : UInt8} {start : StartByte} {body : Bytes}
    (h : filter.accept b = some start) (hl : length.toNat ≤ maxPayload)
    (hb : body.length < length.toNat + checksumSize) :
    Opens filter (b :: length :: command :: body) (.awaitPayload start length command body)

/-! ## The events of a stream, piece by piece -/

variable {filter : StartFilter} {b length command : UInt8} {start : StartByte}

theorem tokenize_skip (h : filter.accept b = none) (rest : Bytes) :
    tokenize filter (b :: rest) = none :: tokenize filter rest := by
  simp only [tokenize, h]

theorem tokenize_overflow (h : filter.accept b = some start) (hl : maxPayload < length.toNat)
    (rest : Bytes) :
    tokenize filter (b :: length :: rest) =
      none :: some (.rejected .overflow) :: tokenize filter rest := by
  rw [tokenize.eq_def]
  simp only [h, dif_pos hl]

theorem tokenize_body (h : filter.accept b = some start) (hl : length.toNat ≤ maxPayload)
    (command : UInt8) {body : Bytes} (hb : body.length = length.toNat + checksumSize)
    (rest : Bytes) :
    tokenize filter (b :: length :: command :: body ++ rest) =
      List.replicate (body.length + 2) none ++
        some (judge start length command body hl) :: tokenize filter rest := by
  have ho : ¬maxPayload < length.toNat := Nat.not_lt.2 hl
  have hs : ¬(body ++ rest).length < length.toNat + checksumSize := by
    rw [List.length_append]
    omega
  have hn : body.length + 2 = length.toNat + checksumSize - 1 + 3 := by
    rw [hb, checksumSize]
    omega
  rw [tokenize.eq_def]
  simp only [List.cons_append, h, dif_neg ho, if_neg hs]
  -- The announced length cuts the body off from what follows it.
  simp only [← hb, List.take_left, List.drop_left]
  rw [hn, hb]
  rfl

theorem tokenize_of_opens {seen : Bytes} {phase : Phase} (h : Opens filter seen phase) :
    tokenize filter seen = List.replicate seen.length none := by
  cases h with
  | nothing => rw [tokenize]; rfl
  | start h => rw [tokenize.eq_def]; simp only [h]; rfl
  | length h hl =>
    rw [tokenize.eq_def]
    simp only [h, dif_neg (Nat.not_lt.2 hl)]
    rfl
  | body h hl hb =>
    rw [tokenize.eq_def]
    simp only [h, dif_neg (Nat.not_lt.2 hl), if_pos hb]
    rfl

namespace Receiver

theorem verify_eq {body : Bytes} (hl : length.toNat ≤ maxPayload)
    (hb : body.length = length.toNat + checksumSize) :
    verify start length command body =
      if body.drop length.toNat = word16 (checksum (length :: command :: body.take length.toNat))
      then (.ready ⟨start, command, body.take length.toNat,
        Nat.le_trans (List.length_take_le _ _) hl⟩, .complete)
      else (.idle, .rejected .checksumMismatch) := by
  have hd : (body.drop length.toNat).length = 2 := by
    rw [List.length_drop, hb, checksumSize]
    omega
  have ht : (body.drop length.toNat).take checksumSize = body.drop length.toNat :=
    List.take_of_length_le (Nat.le_of_eq hd)
  have hp : (body.take length.toNat).length ≤ maxPayload :=
    Nat.le_trans (List.length_take_le _ _) hl
  simp only [verify, ht, Frame.checksumOf_eq, ofNat_leValue_eq_iff hd, Frame.make, dif_pos hp]

theorem feed_body {body : Bytes} (hl : length.toNat ≤ maxPayload)
    (hb : body.length < length.toNat + checksumSize) :
    feed ⟨filter, .awaitPayload start length command body⟩ b =
      if body.length + 1 < length.toNat + checksumSize then
        (⟨filter, .awaitPayload start length command (body ++ [b])⟩, .more)
      else
        let next := verify start length command (body ++ [b])
        (⟨filter, next.1⟩, next.2) := by
  have hr : ¬bufferSize ≤ body.length := by
    simp only [bufferSize, checksumSize, maxPayload] at *
    omega
  simp only [feed, advance, if_neg hr, List.length_append, List.length_singleton]
  split <;> rfl

theorem serve_last {body : Bytes} (hl : length.toNat ≤ maxPayload)
    (hb : body.length + 1 = length.toNat + checksumSize) :
    serve ⟨filter, .awaitPayload start length command body⟩ b =
      (ofFilter filter, some (judge start length command (body ++ [b]) hl)) := by
  have hw : (body ++ [b]).length = length.toNat + checksumSize := by
    rw [List.length_append, List.length_singleton, hb]
  have hm : ¬body.length + 1 < length.toNat + checksumSize := by omega
  simp only [serve, feed_body hl (show body.length < length.toNat + checksumSize by omega),
    if_neg hm, verify_eq hl hw, judge]
  by_cases hc : (body ++ [b]).drop length.toNat =
      word16 (checksum (length :: command :: (body ++ [b]).take length.toNat))
  · simp only [if_pos hc]
    rfl
  · simp only [if_neg hc]
    rfl

/-- A byte behind those of an unfinished frame either carries it on, or brings it to an
end, and then the event is that of the stream. -/
theorem serve_of_opens {seen : Bytes} {phase : Phase} (h : Opens filter seen phase) (b : UInt8) :
    (∃ next, serve ⟨filter, phase⟩ b = (⟨filter, next⟩, none) ∧ Opens filter (seen ++ [b]) next) ∨
    (∃ event, serve ⟨filter, phase⟩ b = (ofFilter filter, event) ∧
      ∀ rest, tokenize filter (seen ++ b :: rest) =
        List.replicate seen.length none ++ event :: tokenize filter rest) := by
  cases h with
  | nothing =>
    cases hb : filter.accept b with
    | none =>
      refine .inr ⟨none, ?_, tokenize_skip hb⟩
      simp only [serve, feed, advance, hb]
      rfl
    | some start =>
      refine .inl ⟨.awaitLength start, ?_, .start hb⟩
      simp only [serve, feed, advance, hb]
  | start h =>
    by_cases hl : maxPayload < b.toNat
    · have ho : bufferSize < b.toNat + checksumSize := by
        simp only [bufferSize, checksumSize, maxPayload] at *
        omega
      refine .inr ⟨some (.rejected .overflow), ?_, tokenize_overflow h hl⟩
      simp only [serve, feed, advance, if_pos ho]
      rfl
    · have ho : ¬bufferSize < b.toNat + checksumSize := by
        simp only [bufferSize, checksumSize, maxPayload] at *
        omega
      refine .inl ⟨_, ?_, .length h (Nat.le_of_not_lt hl)⟩
      simp only [serve, feed, advance, if_neg ho]
  | length h hl =>
    refine .inl ⟨_, rfl, .body h hl ?_⟩
    simp [checksumSize]
  | @body _ length command start body h hl hb =>
    have hn : (body ++ [b]).length = body.length + 1 := by simp
    by_cases hm : body.length + 1 < length.toNat + checksumSize
    · refine .inl ⟨.awaitPayload start length command (body ++ [b]), ?_, .body h hl (hn ▸ hm)⟩
      simp only [serve, feed_body hl hb, if_pos hm]
    · have hw : body.length + 1 = length.toNat + checksumSize := by omega
      refine .inr ⟨_, serve_last hl hw, fun rest => ?_⟩
      have ht := tokenize_body h hl command (hn.trans hw) rest
      simpa only [List.cons_append, List.append_assoc, List.nil_append, List.length_append,
        List.length_cons, List.length_nil] using ht

end Receiver

open Receiver in
/-- Behind the bytes of an unfinished frame, the receiver sees what is still to come of
the stream that begins with them. -/
theorem tokenize_append_of_opens {seen : Bytes} {phase : Phase} (h : Opens filter seen phase)
    (bs : Bytes) :
    tokenize filter (seen ++ bs) =
      List.replicate seen.length none ++ (run serve ⟨filter, phase⟩ bs).2 := by
  -- By induction on what is still to come. A byte that carries the frame on joins the
  -- bytes seen; one that ends it leaves nothing seen.
  induction bs generalizing seen phase with
  | nil => rw [List.append_nil, tokenize_of_opens h]; exact (List.append_nil _).symm
  | cons b rest ih =>
    obtain ⟨next, hs, hn⟩ | ⟨event, hs, ht⟩ := serve_of_opens h b
    · have hi := ih hn
      simp only [run, hs]
      simpa only [List.append_assoc, List.singleton_append, List.length_append,
        List.length_singleton, List.replicate_succ'] using hi
    · have hi : tokenize filter rest = (run serve (ofFilter filter) rest).2 := ih .nothing
      simp only [run, hs, ht, hi]

/-- An owner who takes each frame as it is completed and starts over sees the events of
the stream, each at the same byte. -/
theorem run_serve_eq_tokenize (filter : StartFilter) (bs : Bytes) :
    (run Receiver.serve (.ofFilter filter) bs).2 = tokenize filter bs :=
  (tokenize_append_of_opens .nothing bs).symm

end GimbalLink
