import GimbalLink.Proofs.Checksum.Linear
import GimbalLink.Proofs.Frame.Feeding
/-
  The residue of a frame.

  A checksum that runs on over the checksum behind the bytes comes to zero. No other two bytes
  bring it there, for two bytes enter the register as one word, and nothing is lost in the shifts
  that follow. So to compare the checksum that was received with the one that was computed is to
  ask whether the whole, but for the start byte, leaves nothing.

  What is proved:
    1. `checksum_append_word16`: a word behind some bytes brings their checksum to zero just if
       it is their checksum.
    2. `verify_eq_residue`: a receiver judges a body by its residue.
    3. `toBytes_of_completed`: bytes that a receiver takes for a frame, from the first to the last,
       are a frame on the wire.
    4. `residue_zero`: all of it together, for all bytes and every frame.
-/
namespace GimbalLink

theorem checksum_append_word16 (bs : Bytes) (w : UInt16) :
    checksum (bs ++ word16 w) = 0 ↔ w = checksum bs := by
  rw [checksum, Checksum.extend_append, Checksum.extend_word16_eq_zero_iff]
  rfl

theorem checksum_append_two {bs tail : Bytes} (h : tail.length = 2) :
    checksum (bs ++ tail) = 0 ↔ tail = word16 (checksum bs) := by
  rw [← ofNat_leValue_eq_iff h, ← checksum_append_word16, word16_leValue h]

namespace Frame

/-- What the checksum covers, and the checksum behind it. -/
theorem tail_toBytes (f : Frame) : f.toBytes.tail = f.covered ++ word16 f.checksum := by
  rw [checksum_eq]
  rfl

theorem checksum_tail_toBytes (f : Frame) : GimbalLink.checksum f.toBytes.tail = 0 := by
  rw [tail_toBytes, checksum_append_word16, checksum_eq]

end Frame

/-! ## Frames as they are laid out -/

/-- A start byte that the filter accepts, a length that fits, a command, and then as many bytes as
the length says and two more. -/
def LaidOut (filter : StartFilter) (bs : Bytes) : Prop :=
  ∃ b length command body, bs = b :: length :: command :: body ∧ (filter.accept b).isSome ∧
    length.toNat ≤ maxPayload ∧ body.length = length.toNat + checksumSize

variable {filter : StartFilter}

theorem Frame.laidOut_toBytes (f : Frame) (h : (filter.accept f.start.toByte).isSome) :
    LaidOut filter f.toBytes :=
  ⟨_, _, _, _, f.toBytes_eq, h, f.lengthByte_le, f.length_body⟩

namespace Receiver

/-- From the first byte to the last, and not before, a new receiver makes one frame of these
bytes. -/
def Accepts (filter : StartFilter) (bs : Bytes) : Prop :=
  (∃ b ∈ bs.head?, (filter.accept b).isSome) ∧
    (run feed (ofFilter filter) bs).2 = List.replicate (bs.length - 1) .more ++ [.complete]

/-- How a new receiver judges some bytes. -/
structure Judged (filter : StartFilter) (bs : Bytes) : Prop where
  accepts_iff : Accepts filter bs ↔ LaidOut filter bs ∧ checksum bs.tail = 0
  refused : LaidOut filter bs → checksum bs.tail ≠ 0 → run feed (ofFilter filter) bs =
    (ofFilter filter, List.replicate (bs.length - 1) .more ++ [.rejected .checksumMismatch])

variable {start : StartByte} {length command : UInt8} {body : Bytes}

/-- The checksum received is the one computed just if the whole leaves nothing. -/
theorem verify_eq_residue (hl : length.toNat ≤ maxPayload)
    (hb : body.length = length.toNat + checksumSize) :
    verify start length command body =
      if checksum (length :: command :: body) = 0
      then (.ready ⟨start, command, body.take length.toNat,
        Nat.le_trans (List.length_take_le _ _) hl⟩, .complete)
      else (.idle, .rejected .checksumMismatch) := by
  have htail : (body.drop length.toNat).length = 2 := by
    rw [List.length_drop, hb, checksumSize]
    omega
  have hparts : length :: command :: body =
      length :: command :: body.take length.toNat ++ body.drop length.toNat := by
    rw [List.cons_append, List.cons_append, List.take_append_drop]
  rw [verify_eq hl hb, hparts]
  simp only [checksum_append_two htail]

/-- Bytes that are laid out as a frame are judged at the last one. -/
theorem run_feed_laidOut {bs : Bytes} (h : LaidOut filter bs) :
    (checksum bs.tail = 0 → Accepts filter bs) ∧
    (checksum bs.tail ≠ 0 → run feed (ofFilter filter) bs =
      (ofFilter filter, List.replicate (bs.length - 1) .more ++ [.rejected .checksumMismatch])) := by
  obtain ⟨b, length, command, body, rfl, hb, hl, hbody⟩ := h
  obtain ⟨start, hstart⟩ := Option.isSome_iff_exists.1 hb
  have hrun := run_feed_framed hstart hl command hbody
  rw [verify_eq_residue hl hbody] at hrun
  rw [List.tail_cons]
  constructor
  · intro hzero
    rw [if_pos hzero] at hrun
    exact ⟨⟨b, rfl, hb⟩, congrArg Prod.snd hrun⟩
  · intro hne
    rw [if_neg hne] at hrun
    exact hrun

/-- A frame that was begun goes on or is completed, unless it is rejected. -/
theorem Fed.ne_idle {b : UInt8} {phase next : Phase} {reception : Reception}
    (h : Fed filter b phase next reception) (hne : phase ≠ .idle)
    (hr : ∀ e, reception ≠ .rejected e) : next ≠ .idle := by
  cases h with
  | skipped _ => exact hne
  | overlong _ => exact absurd rfl (hr _)
  | mismatched => exact absurd rfl (hr _)
  | _ => exact nofun

/-- A frame that was begun, and that bytes complete without a break, is made of all of them. -/
theorem toBytes_of_completed {seen : Bytes} {phase : Phase} (h : Opens filter seen phase)
    (hne : phase ≠ .idle) {bs : Bytes} {n : Nat}
    (hr : (run feed ⟨filter, phase⟩ bs).2 = List.replicate n .more ++ [.complete]) :
    ∃ f : Frame, f.toBytes = seen ++ bs := by
  induction bs generalizing seen phase n with
  | nil => simp [run] at hr
  | cons b rest ih =>
    have hfed := fed_of_opens h b
    have hr : (feed ⟨filter, phase⟩ b).2 ::
        (run feed ⟨filter, (feed ⟨filter, phase⟩ b).1.phase⟩ rest).2 =
          List.replicate n .more ++ [.complete] := hr
    generalize (feed ⟨filter, phase⟩ b).1.phase = next at hfed hr
    generalize (feed ⟨filter, phase⟩ b).2 = reception at hfed hr
    have hidle : (∀ e, reception ≠ .rejected e) → next ≠ .idle := hfed.ne_idle hne
    cases n with
    | zero =>
      obtain ⟨rfl, hrest⟩ := List.cons.inj hr
      -- The byte that completes the frame is the last.
      obtain rfl : rest = [] := by
        rw [← List.length_eq_zero_iff, ← length_run feed ⟨filter, next⟩ rest, hrest, List.length_nil]
      have hnext : next ≠ .idle := hidle fun _ => Reception.noConfusion
      rcases opens_fed h hfed hnext with ⟨hmore, -⟩ | ⟨f, -, -, hf⟩
      · cases hmore
      · exact ⟨f, hf⟩
    | succ n =>
      obtain ⟨rfl, hrest⟩ := List.cons.inj hr
      have hnext : next ≠ .idle := hidle fun _ => Reception.noConfusion
      rcases opens_fed h hfed hnext with ⟨-, hopens⟩ | ⟨f, hcomplete, -, -⟩
      · obtain ⟨f, hf⟩ := ih hopens hnext hrest
        exact ⟨f, by rw [hf, List.append_assoc, List.singleton_append]⟩
      · cases hcomplete

/-- Bytes that a new receiver makes one frame of are a frame on the wire. -/
theorem toBytes_of_accepts {bs : Bytes} (h : Accepts filter bs) :
    ∃ f : Frame, f.toBytes = bs ∧ (filter.accept f.start.toByte).isSome := by
  obtain ⟨⟨b, hb, haccept⟩, hrun⟩ := h
  obtain ⟨rest, rfl⟩ := List.head?_eq_some_iff.1 (Option.mem_def.1 hb)
  obtain ⟨start, hstart⟩ := Option.isSome_iff_exists.1 haccept
  have hfirst : feed (ofFilter filter) b = (⟨filter, .awaitLength start⟩, .more) := by
    simp only [feed, ofFilter, advance, hstart]
  have hmore : (run feed ⟨filter, .awaitLength start⟩ rest).2 =
      List.replicate (rest.length - 1) .more ++ [.complete] := by
    simp only [run, hfirst, List.length_cons, Nat.add_sub_cancel] at hrun
    cases hn : rest.length with
    | zero =>
      rw [hn] at hrun
      cases hrun
    | succ n =>
      rw [hn] at hrun
      exact (List.cons.inj hrun).2
  have hbegun : Phase.awaitLength start ≠ .idle := Phase.noConfusion
  obtain ⟨f, hf⟩ := toBytes_of_completed (.start hstart) hbegun hmore
  refine ⟨f, hf, ?_⟩
  rw [(List.cons.inj hf).1]
  exact haccept

theorem judged (filter : StartFilter) (bs : Bytes) : Judged filter bs where
  accepts_iff := by
    constructor
    · intro h
      obtain ⟨f, rfl, hf⟩ := toBytes_of_accepts h
      exact ⟨f.laidOut_toBytes hf, f.checksum_tail_toBytes⟩
    · rintro ⟨h, hzero⟩
      exact (run_feed_laidOut h).1 hzero
  refused h := (run_feed_laidOut h).2

end Receiver

/-- Two bytes behind others bring the checksum to zero just if they are the checksum of the
others, low byte first. So the bytes of a frame that follow its start byte leave nothing, and a
receiver accepts, of the bytes that are laid out as a frame, just those that leave nothing. -/
theorem residue_zero :
    (∀ (bs : Bytes) (low high : UInt8), checksum (bs ++ [low, high]) = 0 ↔
      low = (checksum bs).toUInt8 ∧ high = (checksum bs >>> 8).toUInt8) ∧
    (∀ f : Frame,
      let content := f.lengthByte :: f.command :: f.payload ++
        [f.checksum.toUInt8, (f.checksum >>> 8).toUInt8]
      f.encode = .ok (f.start.toByte :: content) ∧ checksum content = 0) ∧
    ∀ filter bs, Receiver.Judged filter bs := by
  refine ⟨?_, ?_, Receiver.judged⟩
  · intro bs low high
    rw [checksum_append_two rfl, word16_eq]
    simp
  · intro f content
    have hcontent : f.toBytes.tail = content := by
      rw [f.tail_toBytes, word16_eq]
      rfl
    rw [← hcontent, f.encode_eq_ok]
    exact ⟨rfl, f.checksum_tail_toBytes⟩

end GimbalLink
