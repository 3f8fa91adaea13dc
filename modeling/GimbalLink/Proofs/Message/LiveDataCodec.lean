import GimbalLink.Proofs.Message.Layouts
import GimbalLink.Proofs.Message.Answers
/-
  Live data on the wire.

  The word of flags in front tells which parts follow it, and with that how long the whole
  is. A payload can be read just if it begins with such a word, none but the two known flags
  are set in it, and it is as long as these say (`LiveData.Readable`). Reading takes the parts
  from the flags and writing takes the flags from the parts, and the two agree.

  What is proved:
    1. `FlagSet.contains_iff`: containment of flags, bit by bit.
    2. `presentFlags_eq`: live data whose parts are those of its flags has just the flags of
       its parts.
    3. `codec_exact`: which frames are read as live data, and that reading and writing undo
       each other.
-/
namespace GimbalLink

/-! ## Flags -/

namespace FlagSet

variable {w : Nat} {known : BitVec w}

theorem contains_iff {s other : FlagSet known} :
    s.contains other = true ↔ ∀ k, other.bits.getLsbD k = true → s.bits.getLsbD k = true := by
  rw [contains, beq_iff_eq]
  constructor
  · intro h k hk
    rw [← h, BitVec.getLsbD_and, Bool.and_eq_true] at hk
    exact hk.1
  · intro h
    apply BitVec.eq_of_getLsbD_eq
    intro k _
    rw [BitVec.getLsbD_and, Bool.and_eq_right_iff_imp]
    exact h k

/-- A single flag is contained just if its bit is set. -/
theorem contains_single {s other : FlagSet known} {i : Nat}
    (h : ∀ k, other.bits.getLsbD k = decide (k = i)) : s.contains other = s.bits.getLsbD i := by
  rw [Bool.eq_iff_iff, contains_iff]
  simp [h]

end FlagSet

namespace LiveFields

/-- The place of the flag of the attitude. -/
def attitudeBit : Nat := 12

/-- The place of the flag of the status block. -/
def statusBit : Nat := 13

theorem getLsbD_attitude (k : Nat) : attitude.bits.getLsbD k = decide (k = attitudeBit) := by
  show (BitVec.twoPow 16 12).getLsbD k = _
  rw [BitVec.getLsbD_twoPow]
  exact decide_eq_decide.2 eq_comm

theorem getLsbD_status (k : Nat) : status.bits.getLsbD k = decide (k = statusBit) := by
  show (BitVec.twoPow 16 13).getLsbD k = _
  rw [BitVec.getLsbD_twoPow]
  exact decide_eq_decide.2 eq_comm

/-- The flags of the parts that are there. -/
def ofParts (hasAttitude hasStatus : Bool) : LiveFields :=
  ⟨(if hasAttitude then 0x1000#16 else 0) ||| (if hasStatus then 0x2000#16 else 0)⟩

theorem getLsbD_ofParts (hasAttitude hasStatus : Bool) (k : Nat) :
    (ofParts hasAttitude hasStatus).bits.getLsbD k =
      (hasAttitude && decide (k = attitudeBit) || hasStatus && decide (k = statusBit)) := by
  have ha : (0x1000#16).getLsbD k = _ := getLsbD_attitude k
  have hs : (0x2000#16).getLsbD k = _ := getLsbD_status k
  rw [ofParts, BitVec.getLsbD_or]
  cases hasAttitude <;> cases hasStatus <;> simp [ha, hs]

theorem getLsbD_ofParts_attitudeBit (hasAttitude hasStatus : Bool) :
    (ofParts hasAttitude hasStatus).bits.getLsbD attitudeBit = hasAttitude := by
  rw [getLsbD_ofParts]
  simp [attitudeBit, statusBit]

theorem getLsbD_ofParts_statusBit (hasAttitude hasStatus : Bool) :
    (ofParts hasAttitude hasStatus).bits.getLsbD statusBit = hasStatus := by
  rw [getLsbD_ofParts]
  simp [attitudeBit, statusBit]

end LiveFields

/-! ## Parts -/

namespace Reader

variable {α : Type} {r : Reader α} {w : α → Bytes}

theorem spans_liveAttitude : Spans liveAttitude 12 fun bs a => bs = a.toBytes := by
  show Spans _ (4 + (4 + (4 + 0))) _
  exact spans_binary32.field fun _ => spans_binary32.field fun _ => spans_binary32.field fun _ =>
    .pure' (by simp [LiveAttitude.toBytes])

theorem spans_liveStatus : Spans liveStatus 10 fun bs s => bs = s.toBytes := by
  show Spans _ (2 + (2 + (2 + (2 + (2 + 0))))) _
  exact spans_word16.field fun _ => spans_word16.field fun _ => spans_word16.field fun _ =>
    spans_word16.field fun _ => spans_word16.field fun _ =>
      .pure' (by simp [LiveStatus.toBytes])

/-- What a part that may be missing is written as. -/
def written (w : α → Bytes) (o : Option α) : Bytes := (o.map w).getD []

theorem spans_ifPresent {n : Nat} (h : Spans r n fun bs a => bs = w a) (present : Bool) :
    Spans (ifPresent present r) (if present then n else 0) fun bs o =>
      o.isSome = present ∧ bs = written w o := by
  cases present with
  | false => exact .pure' ⟨rfl, rfl⟩
  | true => exact h.map (f := some) fun bs a _ hbs => ⟨rfl, hbs⟩

theorem reads_ifPresent (h : ∀ a, Reads r (w a) a) (o : Option α) :
    Reads (ifPresent o.isSome r) (written w o) o := by
  cases o with
  | none => exact .pure' none
  | some a => exact (h a).map some

theorem reads_liveAttitude (a : LiveAttitude) : Reads liveAttitude a.toBytes a := by
  have h : Reads liveAttitude _ a := (reads_binary32 a.pitch).bind ((reads_binary32 a.roll).bind
    ((reads_binary32 a.yaw).bind (.pure' _)))
  simpa only [LiveAttitude.toBytes, List.append_assoc, List.append_nil] using h

theorem reads_liveStatus (s : LiveStatus) : Reads liveStatus s.toBytes s := by
  have h : Reads liveStatus _ s := (reads_word16 s.state).bind ((reads_word16 s.status).bind
    ((reads_word16 s.status2).bind ((reads_word16 s.errors).bind ((reads_word16 s.voltage).bind
      (.pure' _)))))
  simpa only [LiveStatus.toBytes, List.append_assoc, List.append_nil] using h

end Reader

namespace LiveData

open Reader LiveFields

/-- What follows the flags. -/
def parts (flags : LiveFields) : Reader LiveData := do
  guard (supported.contains flags)
  let attitude ← ifPresent (flags.contains LiveFields.attitude) liveAttitude
  let status ← ifPresent (flags.contains LiveFields.status) liveStatus
  return ⟨flags, attitude, status⟩

theorem reader_eq : reader = (do parts ⟨(← Reader.word16).toBitVec⟩) := rfl

theorem supported_contains_iff (flags : LiveFields) :
    supported.contains flags = true ↔
      ∀ k, flags.bits.getLsbD k = true → k = attitudeBit ∨ k = statusBit := by
  have hbits (k : Nat) : supported.bits.getLsbD k = true ↔ k = attitudeBit ∨ k = statusBit := by
    have h := getLsbD_ofParts true true k
    show (ofParts true true).bits.getLsbD k = true ↔ _
    simp [h]
  rw [FlagSet.contains_iff]
  simp only [hbits]

theorem supported_contains_ofParts (hasAttitude hasStatus : Bool) :
    supported.contains (ofParts hasAttitude hasStatus) = true := by
  rw [supported_contains_iff]
  intro k hk
  rw [getLsbD_ofParts] at hk
  simp at hk
  exact hk.imp And.right And.right

theorem presentFlags_eq_ofParts (d : LiveData) :
    d.presentFlags = ofParts d.attitude.isSome d.status.isSome := by
  unfold presentFlags
  cases d.attitude.isSome <;> cases d.status.isSome <;> rfl

theorem payload_eq (d : LiveData) :
    d.payload = word16 (UInt16.ofBitVec (ofParts d.attitude.isSome d.status.isSome).bits) ++
      (written LiveAttitude.toBytes d.attitude ++ written LiveStatus.toBytes d.status) := by
  rw [← presentFlags_eq_ofParts, ← List.append_assoc]
  rfl

theorem parts_of_unsupported {flags : LiveFields} (h : supported.contains flags = false)
    (bs : Bytes) : parts flags bs = none := by
  have hguard : (guard (supported.contains flags) : Reader Unit) = failure :=
    if_neg (Bool.eq_false_iff.1 h)
  rw [parts, hguard]
  rfl

theorem parts_of_supported {flags : LiveFields} (h : supported.contains flags = true) :
    parts flags = (do
      let attitude ← ifPresent (flags.bits.getLsbD attitudeBit) liveAttitude
      let status ← ifPresent (flags.bits.getLsbD statusBit) liveStatus
      return ⟨flags, attitude, status⟩) := by
  have hguard : (guard (supported.contains flags) : Reader Unit) = pure () := if_pos h
  rw [parts, hguard, FlagSet.contains_single getLsbD_attitude,
    FlagSet.contains_single getLsbD_status]
  rfl

theorem spans_parts {flags : LiveFields} (h : supported.contains flags = true) :
    Spans (parts flags) ((if flags.bits.getLsbD attitudeBit then 12 else 0) +
      (if flags.bits.getLsbD statusBit then 10 else 0)) fun bs d =>
        d.flags = flags ∧ d.attitude.isSome = flags.bits.getLsbD attitudeBit ∧
        d.status.isSome = flags.bits.getLsbD statusBit ∧
        bs = written LiveAttitude.toBytes d.attitude ++ written LiveStatus.toBytes d.status := by
  rw [parts_of_supported h]
  refine (spans_ifPresent spans_liveAttitude _).bind fun bs attitude _ ha => ?_
  exact (spans_ifPresent spans_liveStatus _).map fun cs status _ hs =>
    ⟨rfl, ha.1, hs.1, by rw [ha.2, hs.2]⟩

/-- Live data whose parts are those of its flags has just the flags of its parts. -/
theorem presentFlags_eq {d : LiveData} (h : supported.contains d.flags = true)
    (ha : d.attitude.isSome = d.flags.bits.getLsbD attitudeBit)
    (hs : d.status.isSome = d.flags.bits.getLsbD statusBit) : d.presentFlags = d.flags := by
  have hbits : d.presentFlags.bits = d.flags.bits := by
    apply BitVec.eq_of_getLsbD_eq
    intro k _
    rw [presentFlags_eq_ofParts, getLsbD_ofParts, ha, hs]
    by_cases hka : k = attitudeBit
    · subst hka
      simp [attitudeBit, statusBit]
    · by_cases hks : k = statusBit
      · subst hks
        simp [attitudeBit, statusBit]
      · -- No other flag is set on either side.
        have hk : d.flags.bits.getLsbD k = false := Bool.eq_false_iff.2 fun hset =>
          ((supported_contains_iff _).1 h k hset).elim hka hks
        simp [hka, hks, hk]
  generalize d.presentFlags = flags at hbits
  cases flags
  cases hbits
  rfl

/-! ## Payloads -/

/-- The word in front of the parts. -/
def flagsWord (payload : Bytes) : Nat := leValue (payload.take 2)

/-- The payload begins with a word of known flags, and is as long as these say. -/
structure Readable (payload : Bytes) : Prop where
  word : 2 ≤ payload.length
  known : ∀ k, (flagsWord payload).testBit k = true → k = attitudeBit ∨ k = statusBit
  length_eq : payload.length = 2 + (if (flagsWord payload).testBit attitudeBit then 12 else 0) +
    (if (flagsWord payload).testBit statusBit then 10 else 0)

/-- The flags are those of the payload, the parts are those of the flags, and written again it is
the payload. -/
structure Conforms (d : LiveData) (payload : Bytes) : Prop where
  flags_eq : d.flags.bits.toNat = flagsWord payload
  attitude_isSome : d.attitude.isSome = (flagsWord payload).testBit attitudeBit
  status_isSome : d.status.isSome = (flagsWord payload).testBit statusBit
  payload_eq : d.payload = payload

theorem exactly_reader {payload : Bytes} (h : 2 ≤ payload.length) :
    ∃ flags : LiveFields, flags.bits.toNat = flagsWord payload ∧
      (∀ k, flags.bits.getLsbD k = (flagsWord payload).testBit k) ∧
      payload.take 2 = word16 (UInt16.ofBitVec flags.bits) ∧
      reader.exactly payload = (parts flags).exactly (payload.drop 2) := by
  rw [reader_eq]
  obtain ⟨w, hw, hread⟩ := spans_word16.exactly_bind h
  have hword : w.toBitVec.toNat = flagsWord payload := by
    rw [flagsWord, hw, leValue_word16]
    rfl
  refine ⟨⟨w.toBitVec⟩, hword, fun k => ?_, hw, hread⟩
  rw [← hword]
  rfl

theorem exactly_reader_of_readable {payload : Bytes} (h : Readable payload) :
    ∃ d, reader.exactly payload = some d ∧ Conforms d payload := by
  obtain ⟨flags, hword, hbit, hfront, hread⟩ := exactly_reader h.word
  have hsupported : supported.contains flags = true :=
    (supported_contains_iff flags).2 fun k hk => h.known k (hbit k ▸ hk)
  have hrest : (payload.drop 2).length = (if flags.bits.getLsbD attitudeBit then 12 else 0) +
      (if flags.bits.getLsbD statusBit then 10 else 0) := by
    have hlength := h.length_eq
    rw [List.length_drop, hbit, hbit]
    omega
  obtain ⟨d, hd, rfl, ha, hs, hback⟩ := (spans_parts hsupported).exactly_of_eq hrest
  refine ⟨d, hread.trans hd, hword, ha.trans (hbit _), hs.trans (hbit _), ?_⟩
  rw [payload_eq, ← presentFlags_eq_ofParts, presentFlags_eq hsupported ha hs, ← hfront, ← hback,
    List.take_append_drop]

theorem exactly_reader_of_not_readable {payload : Bytes} (h : ¬Readable payload) :
    reader.exactly payload = none := by
  by_cases hshort : payload.length < 2
  · rw [reader_eq]
    exact spans_word16.exactly_bind_of_short hshort
  · obtain ⟨flags, -, hbit, -, hread⟩ := exactly_reader (Nat.le_of_not_lt hshort)
    rw [hread]
    cases hsupported : supported.contains flags with
    | false => simp only [exactly, parts_of_unsupported hsupported]
    | true =>
      apply (spans_parts hsupported).exactly_of_ne
      intro hlength
      rw [List.length_drop, hbit, hbit] at hlength
      refine h ⟨Nat.le_of_not_lt hshort, fun k hk => ?_, by omega⟩
      exact (supported_contains_iff flags).1 hsupported k (hbit k ▸ hk)

theorem reads_flagged {flags : LiveFields} {bs : Bytes} {d : LiveData}
    (h : Reads (parts flags) bs d) :
    Reads reader (word16 (UInt16.ofBitVec flags.bits) ++ bs) d :=
  (reads_word16 (UInt16.ofBitVec flags.bits)).bind h

theorem reads_payload (d : LiveData) :
    Reads reader d.payload { d with flags := ofParts d.attitude.isSome d.status.isSome } := by
  rw [payload_eq]
  apply reads_flagged
  rw [parts_of_supported (supported_contains_ofParts _ _), getLsbD_ofParts_attitudeBit,
    getLsbD_ofParts_statusBit]
  have hstatus := (reads_ifPresent reads_liveStatus d.status).map fun status =>
    (⟨ofParts d.attitude.isSome d.status.isSome, d.attitude, status⟩ : LiveData)
  exact (reads_ifPresent reads_liveAttitude d.attitude).bind hstatus

/-! ## Frames -/

theorem ofFrame_of_command {f : Frame} (h : f.command = Code.liveData) :
    ofFrame f = match reader.exactly f.payload with
      | some d => .ok d
      | none => .error .malformed := by
  have he : f.expect Code.liveData = .ok () := (f.expect_eq_ok_iff _).2 h
  simp only [ofFrame, he]
  cases reader.exactly f.payload <;> rfl

theorem ofFrame_of_other_command {f : Frame} (h : f.command ≠ Code.liveData) :
    ofFrame f = .error .unexpectedCommand := by
  simp only [ofFrame, Frame.expect, if_neg h]
  rfl

/-- A frame is refused as unexpected just if its code is another. Of the others those are read
whose payload is readable, and the rest are malformed. What is read has the flags that stand in
the payload and just their parts, and makes a frame with the same code and payload. And any live
data makes a frame that is read as that data, its flags being those of the parts that are there. -/
theorem codec_exact (f : Frame) (d : LiveData) :
    (ofFrame f = .error .unexpectedCommand ↔ f.command ≠ Code.liveData) ∧
      ((∃ e, ofFrame f = .ok e) ↔ f.command = Code.liveData ∧ Readable f.payload) ∧
      (ofFrame f = .error .malformed ↔ f.command = Code.liveData ∧ ¬Readable f.payload) ∧
      (∀ e, ofFrame f = .ok e → Conforms e f.payload ∧
        ∃ g, e.toFrame = .ok g ∧ g.command = f.command ∧ g.payload = f.payload) ∧
      ∃ g, d.toFrame = .ok g ∧
        ofFrame g = .ok { d with flags := ofParts d.attitude.isSome d.status.isSome } := by
  have hback : ∃ g, d.toFrame = .ok g ∧
      ofFrame g = .ok { d with flags := ofParts d.attitude.isSome d.status.isSome } := by
    refine ⟨_, d.toFrame_eq_ok, ?_⟩
    rw [ofFrame_of_command rfl]
    simp only [d.reads_payload.exactly]
  by_cases hc : f.command = Code.liveData
  · by_cases hr : Readable f.payload
    · obtain ⟨e, he, hconforms⟩ := exactly_reader_of_readable hr
      have hf : ofFrame f = .ok e := by simp only [ofFrame_of_command hc, he]
      rw [hf]
      refine ⟨by simp [hc], by simp [hc, hr], by simp [hr], ?_, hback⟩
      rintro _ ⟨⟩
      exact ⟨hconforms, _, e.toFrame_eq_ok, hc.symm, hconforms.payload_eq⟩
    · have hf : ofFrame f = .error .malformed := by
        simp only [ofFrame_of_command hc, exactly_reader_of_not_readable hr]
      rw [hf]
      exact ⟨by simp [hc], by simp [hr], by simp [hc, hr], nofun, hback⟩
  · rw [ofFrame_of_other_command hc]
    exact ⟨by simp [hc], by simp [hc], by simp [hc], nofun, hback⟩

end LiveData

end GimbalLink
