import GimbalLink.Proofs.Message.Answers
/-
  Version answers, there and back.

  A field of an answer is read whatever is in it: it is cut at sixteen bytes and at the first
  zero, and what cannot be shown becomes a question mark. So different fields read as the same
  text, and a field is not what its text is written as. But a text has nothing in it that a
  second reading would change, and therefore what was read once stays as it is.

  What is proved:
    1. `IdText.presentable_toString`: whatever is read shows at most sixteen characters, each
       from the blank to the tilde.
    2. `VersionInfo.ofPayload_payload`, `VersionInfo.ofPayload_take`: three texts are read back
       from the fields they are written as, and from any payload that begins with them.
    3. `VersionInfo.rereads`: which frames are read as a version, from what, and that what was
       read is read again.
-/
namespace GimbalLink

/-! ## Texts -/

/-- The characters of printable ASCII, with the blank. -/
def isPresentable (c : Char) : Bool := ' ' ≤ c && c ≤ '~'

theorem isPresentable_ofNat {b : UInt8} (h : isPrintable b = true) :
    isPresentable (Char.ofNat b.toNat) = true := by
  simp only [isPrintable, Bool.and_eq_true, decide_eq_true_eq] at h
  obtain ⟨hlow, hhigh⟩ := h
  have hl : 0x20 ≤ b.toNat := UInt8.le_iff_toNat_le.1 hlow
  have hh : b.toNat ≤ 0x7e := UInt8.le_iff_toNat_le.1 hhigh
  have hn : (Char.ofNat b.toNat).toNat = b.toNat := by
    have hv : b.toNat.isValidChar := .inl (by omega)
    rw [Char.ofNat, dif_pos hv]
    rfl
  simp only [isPresentable, Bool.and_eq_true, decide_eq_true_eq]
  constructor
  · show 0x20 ≤ (Char.ofNat b.toNat).toNat
    omega
  · show (Char.ofNat b.toNat).toNat ≤ 0x7e
    omega

namespace IdText

/-- What a string of an identification may look like. -/
structure Presentable (s : String) : Prop where
  length_le : s.length ≤ 16
  printable : ∀ c ∈ s.toList, isPresentable c = true

theorem presentable_toString (t : IdText) : Presentable t.toString where
  length_le := by
    have h := t.length_le
    simp only [toString, String.length_ofList, List.length_map]
    exact h
  printable := by
    intro c hc
    simp only [toString, String.toList_ofList, List.mem_map] at hc
    obtain ⟨b, hb, rfl⟩ := hc
    exact isPresentable_ofNat (t.printable b hb)

end IdText

/-! ## Answers -/

namespace VersionInfo

variable {f g : Frame}

/-- The three fields lie side by side, and each is read as its text. -/
theorem ofPayload_payload (v : VersionInfo) : ofPayload v.payload = v := by
  have hversion : v.payload.take idFieldSize = v.version.toField := by
    rw [payload, List.append_assoc]
    exact List.take_left' v.version.length_toField
  have hname : (v.payload.drop idFieldSize).take idFieldSize = v.name.toField := by
    rw [payload, List.append_assoc, List.drop_left' v.version.length_toField]
    exact List.take_left' v.name.length_toField
  have hboard : (v.payload.drop (2 * idFieldSize)).take idFieldSize = v.board.toField := by
    rw [payload, List.drop_left' (by simp [idFieldSize])]
    exact List.take_of_length_le (by simp)
  rw [ofPayload, hversion, hname, hboard]
  simp only [IdText.ofField_toField]

/-- What stands behind the three fields is not looked at. -/
theorem ofPayload_take (payload : Bytes) :
    ofPayload (payload.take payloadSize) = ofPayload payload := by
  simp [ofPayload, payloadSize, idFieldSize, List.take_take, List.drop_take]

theorem ofFrame_of_length_le (hc : f.command = Code.version)
    (hl : payloadSize ≤ f.payload.length) : ofFrame f = .ok (ofPayload f.payload) :=
  ofFrame_eq_ok_iff.2 ⟨hc, hl, rfl⟩

theorem ofFrame_of_length_lt (hc : f.command = Code.version)
    (hl : f.payload.length < payloadSize) : ofFrame f = .error .malformed := by
  have he : f.expect Code.version = .ok () := (f.expect_eq_ok_iff _).2 hc
  simp only [ofFrame, he, if_pos hl]
  rfl

/-- Written as an answer, the texts are read back. -/
theorem ofFrame_toFrame (v : VersionInfo) : ∃ g, v.toFrame = .ok g ∧ ofFrame g = .ok v := by
  refine ⟨_, v.toFrame_eq_ok, ?_⟩
  rw [ofFrame_of_length_le rfl (Nat.le_of_eq v.length_payload.symm), ofPayload_payload]

/-- Payloads with the same front, long enough or not, are read alike. -/
theorem ofFrame_congr (hf : f.command = Code.version) (hg : g.command = Code.version)
    (h : g.payload.take payloadSize = f.payload.take payloadSize) : ofFrame g = ofFrame f := by
  have hlength : min payloadSize g.payload.length = min payloadSize f.payload.length := by
    rw [← List.length_take, h, List.length_take]
  by_cases hl : payloadSize ≤ f.payload.length
  · have hl' : payloadSize ≤ g.payload.length := by omega
    rw [ofFrame_of_length_le hf hl, ofFrame_of_length_le hg hl', ← ofPayload_take g.payload, h,
      ofPayload_take]
  · rw [ofFrame_of_length_lt hf (by omega), ofFrame_of_length_lt hg (by omega)]

/-- Whatever a field or a string holds, the text that it is read as shows at most sixteen
printable characters. Every text is read back from the field it is written as, and three texts
from their answer. An answer is read just if three fields are there, and as what these hold; and
written again it is read as the same. -/
theorem rereads :
    (∀ field, IdText.Presentable (IdText.ofField field).toString) ∧
    (∀ s, IdText.Presentable (IdText.ofString s).toString) ∧
    (∀ t : IdText, IdText.ofField t.toField = t) ∧
    (∀ v : VersionInfo, ∃ g, v.toFrame = .ok g ∧ ofFrame g = .ok v) ∧
    ∀ f : Frame, f.command = 0x02 →
      ((∃ v, ofFrame f = .ok v) ↔ 48 ≤ f.payload.length) ∧
      (∀ g : Frame, g.command = 0x02 → g.payload.take 48 = f.payload.take 48 →
        ofFrame g = ofFrame f) ∧
      ∀ v, ofFrame f = .ok v → ∃ g, v.toFrame = .ok g ∧ ofFrame g = .ok v := by
  refine ⟨?_, ?_, IdText.ofField_toField, ofFrame_toFrame, ?_⟩
  · intro field
    exact IdText.presentable_toString _
  · intro s
    exact IdText.presentable_toString _
  · intro f hf
    refine ⟨?_, ?_, ?_⟩
    · constructor
      · rintro ⟨v, hv⟩
        exact (ofFrame_eq_ok_iff.1 hv).2.1
      · intro hl
        exact ⟨_, ofFrame_of_length_le hf hl⟩
    · intro g hg h
      exact ofFrame_congr hf hg h
    · intro v _
      exact v.ofFrame_toFrame

end VersionInfo

end GimbalLink
