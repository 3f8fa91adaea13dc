import GimbalLink.Proofs.Frame.Corruption
/-
  Finding back into a stream.

  A receiver that begins in the middle of something, or has lost a byte, may take a start byte
  for one that is none, and wait for a frame that is not there. How long it may wait is bounded,
  whatever length it has been told, for the longest frame is bounded. So a gap without start
  bytes brings it back to idle: within the gap the false frame is completed or dropped, and no
  new one begins. What is sent next is received as by a new receiver.

  The measure is the number of bytes that the unfinished frame has: it goes up with each byte of
  the gap and stays below the longest frame (`Opens.length_lt`).

  What is proved:
    1. `run_serve_gap`: a gap carries an unfinished frame on, as a whole, or leaves the receiver
       idle.
    2. `run_serve_toBytes`: an idle receiver takes a whole frame and is idle again.
    3. `run_serve_behind_gap`: behind a gap one byte shorter than the longest frame, the next
       frame arrives.
-/
namespace GimbalLink

variable {filter : StartFilter}

/-- An unfinished frame lacks a byte at least. -/
theorem Opens.length_lt {seen : Bytes} {phase : Phase} (h : Opens filter seen phase) :
    seen.length < maxFrame := by
  have hmax : maxFrame = 99 := rfl
  cases h with
  | nothing => simp [hmax]
  | start _ => simp [hmax]
  | length _ _ => simp [hmax]
  | body _ hl hb =>
    simp only [List.length_cons, maxPayload, checksumSize] at *
    omega

namespace Receiver

theorem opens_run (filter : StartFilter) (input : Bytes) :
    ∃ seen phase, Opens filter seen phase ∧
      (run serve (ofFilter filter) input).1 = ⟨filter, phase⟩ := by
  have keeps (r : Receiver) (b : UInt8)
      (hr : ∃ seen phase, Opens filter seen phase ∧ r = ⟨filter, phase⟩) :
      ∃ seen phase, Opens filter seen phase ∧ (serve r b).1 = ⟨filter, phase⟩ := by
    obtain ⟨seen, phase, h, rfl⟩ := hr
    rcases serve_of_opens h b with ⟨next, hs, hn⟩ | ⟨event, hs, -⟩
    · exact ⟨seen ++ [b], next, hn, by rw [hs]⟩
    · exact ⟨[], .idle, .nothing, by rw [hs]; rfl⟩
  exact run_invariant keeps ⟨[], .idle, .nothing, rfl⟩ input

/-! ## Gaps -/

/-- A byte that begins nothing carries an unfinished frame on, or leaves the receiver idle. -/
theorem serve_gap {seen : Bytes} {phase : Phase} (h : Opens filter seen phase) {b : UInt8}
    (hb : filter.accept b = none) :
    (serve ⟨filter, phase⟩ b).1 = ofFilter filter ∨
      ∃ next, (serve ⟨filter, phase⟩ b).1 = ⟨filter, next⟩ ∧ Opens filter (seen ++ [b]) next ∧
        seen ≠ [] := by
  rcases serve_of_opens h b with ⟨next, hs, hn⟩ | ⟨event, hs, -⟩
  · right
    refine ⟨next, by rw [hs], hn, ?_⟩
    -- A frame does not begin with this byte.
    rintro rfl
    cases hn with
    | start hstart =>
      rw [hb] at hstart
      cases hstart
  · left
    rw [hs]

/-- A gap carries an unfinished frame on with all its bytes, or leaves the receiver idle. -/
theorem run_serve_gap {seen : Bytes} {phase : Phase} (h : Opens filter seen phase) (gap : Bytes)
    (hgap : ∀ b ∈ gap, filter.accept b = none) :
    (run serve ⟨filter, phase⟩ gap).1 = ofFilter filter ∨
      ∃ next, (run serve ⟨filter, phase⟩ gap).1 = ⟨filter, next⟩ ∧
        Opens filter (seen ++ gap) next ∧ seen ≠ [] := by
  induction gap generalizing seen phase with
  | nil =>
    by_cases hseen : seen = []
    · left
      subst hseen
      cases h
      rfl
    · right
      exact ⟨phase, rfl, by simpa using h, hseen⟩
  | cons b rest ih =>
    have hb : filter.accept b = none := hgap b List.mem_cons_self
    have hrest : ∀ c ∈ rest, filter.accept c = none :=
      fun c hc => hgap c (List.mem_cons_of_mem b hc)
    simp only [run]
    rcases serve_gap h hb with hs | ⟨next, hs, hn, hseen⟩
    · -- Idle, it stays so: no frame has begun.
      rw [hs]
      rcases ih .nothing hrest with hi | ⟨_, _, _, hne⟩
      · exact .inl hi
      · exact absurd rfl hne
    · rw [hs]
      rcases ih hn hrest with hi | ⟨last, hi, hlast, _⟩
      · exact .inl hi
      · right
        refine ⟨last, hi, ?_, hseen⟩
        simpa using hlast

/-- A gap as long as a frame may still take ends every unfinished frame. -/
theorem idle_behind_gap (input gap : Bytes) (hgap : ∀ b ∈ gap, filter.accept b = none)
    (hn : 98 ≤ gap.length) : (run serve (ofFilter filter) (input ++ gap)).1 = ofFilter filter := by
  obtain ⟨seen, phase, h, hinput⟩ := opens_run filter input
  rw [run_append, hinput]
  rcases run_serve_gap h gap hgap with hidle | ⟨next, _, hopens, hseen⟩
  · exact hidle
  · -- The start byte and the gap would be as long as the longest frame.
    have hlt := hopens.length_lt
    have hpos : 0 < seen.length := List.length_pos_iff.2 hseen
    rw [List.length_append] at hlt
    simp only [maxFrame, headerSize, maxPayload, checksumSize] at hlt
    omega

/-! ## The next frame -/

/-- With an event the receiver starts over. -/
theorem idle_of_event {seen : Bytes} {phase : Phase} (h : Opens filter seen phase) {b : UInt8}
    {event : Event} (he : (serve ⟨filter, phase⟩ b).2 = some event) :
    (serve ⟨filter, phase⟩ b).1 = ofFilter filter := by
  rcases serve_of_opens h b with ⟨next, hs, -⟩ | ⟨_, hs, -⟩
  · rw [hs] at he
    cases he
  · rw [hs]

theorem run_serve_toBytes (f : Frame) (h : filter.accept f.start.toByte = some f.start) :
    run serve (ofFilter filter) f.toBytes =
      (ofFilter filter, List.replicate (f.size - 1) none ++ [some (.completed (some f))]) := by
  have hevents : (run serve (ofFilter filter) f.toBytes).2 =
      List.replicate (f.size - 1) none ++ [some (.completed (some f))] := by
    have ht : tokenize filter f.toBytes = (run serve (ofFilter filter) f.toBytes).2 :=
      tokenize_append_of_opens .nothing _
    rw [← ht, ← List.append_nil f.toBytes, tokenize_toBytes f h, tokenize]
  refine Prod.ext ?_ hevents
  obtain ⟨front, last, hsplit⟩ : ∃ front last, f.toBytes = front ++ [last] :=
    ⟨_, _, (List.dropLast_concat_getLast (by rw [f.toBytes_eq]; simp)).symm⟩
  rw [hsplit, run_append] at hevents ⊢
  obtain ⟨seen, phase, hopens, hfront⟩ := opens_run filter front
  rw [hfront] at hevents ⊢
  obtain ⟨-, hlast⟩ := List.append_inj' hevents rfl
  exact idle_of_event hopens (List.cons.inj hlast).1

/-- Whatever came in before, a gap of 98 bytes without a start byte leaves the receiver idle, and
the frame behind it is complete with its last byte and not before, and is handed out as it was
sent. -/
theorem run_serve_behind_gap (input gap : Bytes) (hgap : ∀ b ∈ gap, filter.accept b = none)
    (hn : 98 ≤ gap.length) :
    (run serve (ofFilter filter) (input ++ gap)).1 = ofFilter filter ∧
      ∀ f : Frame, filter.accept f.start.toByte = some f.start →
        run serve (ofFilter filter) (input ++ gap ++ f.toBytes) =
          (ofFilter filter, (run serve (ofFilter filter) (input ++ gap)).2 ++
            (List.replicate (f.size - 1) none ++ [some (.completed (some f))])) := by
  have hidle := idle_behind_gap input gap hgap hn
  refine ⟨hidle, ?_⟩
  intro f h
  rw [run_append, hidle, run_serve_toBytes f h]

/-- A gap whose first byte may be taken for the greatest length. -/
def widestGap : Bytes := 94 :: List.replicate 97 0

theorem run_serve_behind_widestGap :
    ((∀ b ∈ widestGap, StartFilter.device.accept b = none) ∧ 98 ≤ widestGap.length ∧
      StartFilter.device.accept shortAnswer.start.toByte = some shortAnswer.start) ∧
    (run serve (ofFilter .device) ([0xfb] ++ widestGap)).1 = ofFilter .device ∧
    run serve (ofFilter .device) ([0xfb] ++ widestGap ++ shortAnswer.toBytes) =
      (ofFilter .device, (run serve (ofFilter .device) ([0xfb] ++ widestGap)).2 ++
        (List.replicate (shortAnswer.size - 1) none ++ [some (.completed (some shortAnswer))])) := by
  have hgap : ∀ b ∈ widestGap, StartFilter.device.accept b = none := by
    intro b hb
    rcases List.mem_cons.1 hb with rfl | hb
    · rfl
    · rw [List.eq_of_mem_replicate hb]
      rfl
  have hn : 98 ≤ widestGap.length := by simp [widestGap]
  have ha : StartFilter.device.accept shortAnswer.start.toByte = some shortAnswer.start := rfl
  obtain ⟨hidle, hnext⟩ := run_serve_behind_gap [0xfb] widestGap hgap hn
  exact ⟨⟨hgap, hn, ha⟩, hidle, hnext shortAnswer ha⟩

/-- A byte less is not enough. -/
example : (run serve (ofFilter .device) ([0xfb] ++ widestGap.take 97)).1 ≠ ofFilter .device := by
  decide

end Receiver

end GimbalLink
