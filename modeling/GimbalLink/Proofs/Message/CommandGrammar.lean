import GimbalLink.Proofs.Message.Layouts
import GimbalLink.Proofs.Message.PackedBits
/-
  Which frames are commands.

  A table tells the length of the payload for each code (`Command.catalogue`). A frame is
  read as a command just if its code stands there and its payload has that length, whatever
  the payload holds. From the command the same payload is written again, but for the bytes
  that mean nothing, which are written as zeros (`Command.unusedPlaces`).

  What is proved:
    1. `spans_catalogued`: the layout of each code in the table has the length stated, and
       the command that is read has the code and the payload.
    2. `ofFrame_grammar`: what becomes of a frame, by its code and its length.
-/
namespace GimbalLink

/-- The bytes with zeros at some places. -/
def zeroedAt (places : List Nat) (bs : Bytes) : Bytes :=
  places.foldl (fun bs place => bs.set place 0) bs

namespace Command

/-- The codes of commands, and how long the payload of each is. -/
def catalogue : List (UInt8 × Nat) :=
  [(Code.version, 0), (Code.liveData, 2), (Code.camera, 6), (Code.angles, 14), (Code.pulses, 6),
    (Code.inputs, 23), (Code.home, 14), (Code.target, 14), (Code.status, 33)]

def catalogueSize (code : UInt8) : Option Nat := catalogue.lookup code

/-- The places in a payload that mean nothing. Of the camera's only the action counts, and the
status has a spare byte. -/
def unusedPlaces (code : UInt8) : List Nat :=
  if code = Code.camera then [0, 2, 3, 4, 5] else if code = Code.status then [2] else []

/-- The command has this code, and this payload but for what means nothing there. -/
structure Carries (code : UInt8) (payload : Bytes) (c : Command) : Prop where
  code_eq : c.code = code
  payload_eq : c.payload = zeroedAt (unusedPlaces code) payload

theorem catalogueSize_code (c : Command) : catalogueSize c.code = some c.payloadSize := by
  cases c <;> rfl

theorem reader?_of_catalogueSize_eq_none {code : UInt8} (h : catalogueSize code = none) :
    reader? code = none := by
  have hne : ∀ entry ∈ catalogue, code ≠ entry.1 := by
    intro entry he
    exact bne_iff_ne.1 (List.lookup_eq_none_iff.1 h entry he)
  simp only [catalogue, List.mem_cons, forall_eq_or_imp] at hne
  simp only [reader?, hne, if_false]

theorem Carries.of_eq {code : UInt8} {payload : Bytes} {c : Command} (hc : c.code = code)
    (hu : unusedPlaces code = []) (hp : c.payload = payload) : Carries code payload c := by
  refine ⟨hc, ?_⟩
  rw [hu, hp]
  rfl

open Reader in
theorem spans_catalogued {entry : UInt8 × Nat} (h : entry ∈ catalogue) :
    ∃ r, reader? entry.1 = some r ∧ r.Spans entry.2 (Carries entry.1) := by
  simp only [catalogue, List.mem_cons, List.not_mem_nil, or_false] at h
  obtain rfl | rfl | rfl | rfl | rfl | rfl | rfl | rfl | rfl := h
  · exact ⟨_, rfl, .pure' (.of_eq rfl rfl rfl)⟩
  · refine ⟨_, rfl, spans_word16.map fun bs w _ hw => ?_⟩
    exact .of_eq rfl rfl hw.symm
  · refine ⟨_, rfl, (spans_take 6).map fun bs cs hb hc => ?_⟩
    subst hc
    match cs, hb with
    | [_, _, _, _, _, _], _ => exact ⟨rfl, rfl⟩
  · refine ⟨_, rfl, ?_⟩
    show Spans _ (4 + (4 + (4 + (1 + (1 + 0))))) _
    exact spans_binary32.field fun _ => spans_binary32.field fun _ => spans_binary32.field fun _ =>
      spans_byte.field fun _ => spans_byte.field fun _ => .pure' (.of_eq rfl rfl (by simp [payload]))
  · refine ⟨_, rfl, ?_⟩
    show Spans _ (2 + (2 + (2 + 0))) _
    exact spans_word16.field fun _ => spans_word16.field fun _ => spans_word16.field fun _ =>
      .pure' (.of_eq rfl rfl (by simp [payload]))
  · refine ⟨_, rfl, ?_⟩
    show Spans _ (packedSize + (1 + 0)) _
    refine (spans_take packedSize).bind fun bs cs hb hc => ?_
    subst hc
    exact spans_byte.field fun _ => .pure' (.of_eq rfl rfl (by
      simp [payload, packChannels_unpackChannels hb]))
  · exact ⟨_, rfl, spans_sentLocation.map fun bs p _ hp => .of_eq rfl rfl hp.symm⟩
  · exact ⟨_, rfl, spans_sentLocation.map fun bs p _ hp => .of_eq rfl rfl hp.symm⟩
  · exact ⟨_, rfl, spans_linkStatus.map fun bs s _ hs => ⟨rfl, hs.symm⟩⟩

theorem mem_catalogue {code : UInt8} {n : Nat} (h : catalogueSize code = some n) :
    (code, n) ∈ catalogue := by
  obtain ⟨before, after, hsplit, -⟩ := List.lookup_eq_some_iff.1 h
  rw [hsplit]
  exact List.mem_append_right before List.mem_cons_self

/-! ## What becomes of a frame -/

section Outcomes

variable {f : Frame}

theorem ofFrame_of_unknown (h : catalogueSize f.command = none) :
    ofFrame f = .error .unexpectedCommand := by
  simp only [ofFrame, reader?_of_catalogueSize_eq_none h]

theorem ofFrame_of_length_ne {n : Nat} (h : catalogueSize f.command = some n)
    (hn : f.payload.length ≠ n) : ofFrame f = .error .malformed := by
  obtain ⟨r, hr, hspans⟩ := spans_catalogued (mem_catalogue h)
  simp only [ofFrame, hr, hspans.exactly_of_ne hn]

theorem ofFrame_of_length_eq (h : catalogueSize f.command = some f.payload.length) :
    ∃ c, ofFrame f = .ok c ∧ Carries f.command f.payload c := by
  obtain ⟨r, hr, hspans⟩ := spans_catalogued (mem_catalogue h)
  obtain ⟨c, hc, hcarries⟩ := hspans.exactly_of_eq rfl
  exact ⟨c, by simp only [ofFrame, hr, hc], hcarries⟩

end Outcomes

/-- Whether a frame is a command is settled by its code and its length alone. A code outside the
catalogue is refused as unexpected; a payload longer or shorter than the catalogue says, as
malformed; and every other frame is read. The command that is read makes a frame with the same
code, and with the same payload but for zeros in the places that mean nothing. -/
theorem ofFrame_grammar (f : Frame) :
    (∀ c : Command, catalogueSize c.code = some c.payloadSize) ∧
      (ofFrame f = .error .unexpectedCommand ↔ catalogueSize f.command = none) ∧
      (ofFrame f = .error .malformed ↔
        ∃ n, catalogueSize f.command = some n ∧ f.payload.length ≠ n) ∧
      ((∃ c, ofFrame f = .ok c) ↔ catalogueSize f.command = some f.payload.length) ∧
      ∀ c, ofFrame f = .ok c → ∃ g, c.toFrame f.start = .ok g ∧ g.start = f.start ∧
        g.command = f.command ∧ g.payload = zeroedAt (unusedPlaces f.command) f.payload := by
  refine ⟨catalogueSize_code, ?_⟩
  cases hsize : catalogueSize f.command with
  | none => simp [ofFrame_of_unknown hsize]
  | some n =>
    by_cases hn : f.payload.length = n
    · subst hn
      obtain ⟨c, hc, hcode, hpayload⟩ := ofFrame_of_length_eq hsize
      simp only [hc]
      refine ⟨by simp, by simp, by simp, ?_⟩
      rintro _ ⟨⟩
      exact ⟨_, c.toFrame_eq_ok f.start, rfl, hcode, hpayload⟩
    · simp [ofFrame_of_length_ne hsize hn, hn, Ne.symm hn]

end Command

end GimbalLink
