import GimbalLink.Proofs.Frame.Bounds
import GimbalLink.Proofs.Frame.Delivery
/-
  What feeding does.

  A byte can do ten things to a receiver, and they are listed once (`Fed`): each goes with a
  phase before it and one after it. The states that a receiver goes through, and the errors
  that it gives, are read off this list. A longer feed is so many single ones, up to the first
  byte that completes a frame or shows it to be bad (`intake`).

  What is proved:
    1. `fed_of_opens`: what a byte does in an unfinished frame is on the list.
    2. `opens_fed`: a byte that leaves a frame unfinished belongs to it, and the last one makes
       it whole.
    3. `run_intake`, `feedUntil_error`: a longer feed leads to where its single ones lead, and
       fails with the one that fails.
    4. `isReady_feed_eq`, `isReady_feedUntil_eq`: a feed brings a frame just if it says so.
-/
namespace GimbalLink

/-- The state one step further on the way to a frame. -/
def ReceiveState.next? : ReceiveState → Option ReceiveState
  | .idle => some .awaitLength
  | .awaitLength => some .awaitCommand
  | .awaitCommand => some .awaitPayload
  | .awaitPayload => some .ready
  | .ready | .consumed => none

namespace Receiver

variable {filter : StartFilter} {b : UInt8}

/-- How a byte moves the state: not at all, one step forward, or back to idle. -/
inductive Moves (s : ReceiveState) : ReceiveState → Reception → Prop where
  | stays : Moves s s .more
  | forward {t : ReceiveState} (h : s.next? = some t) (ht : t ≠ .ready) : Moves s t .more
  | completes (h : s.next? = some .ready) : Moves s .ready .complete
  | fails (e : FrameError) (h : s = .awaitLength ∨ s = .awaitPayload) :
    Moves s .idle (.rejected e)

/-! ## A byte -/

/-- What a byte makes of a phase, and what it brings. -/
inductive Fed (filter : StartFilter) (b : UInt8) : Phase → Phase → Reception → Prop where
  | skipped (h : filter.accept b = none) : Fed filter b .idle .idle .more
  | started {start : StartByte} (h : filter.accept b = some start) :
    Fed filter b .idle (.awaitLength start) .more
  | overlong {start : StartByte} (h : maxPayload < b.toNat) :
    Fed filter b (.awaitLength start) .idle (.rejected .overflow)
  | length {start : StartByte} (h : b.toNat ≤ maxPayload) :
    Fed filter b (.awaitLength start) (.awaitCommand start b) .more
  | command {start : StartByte} {length : UInt8} :
    Fed filter b (.awaitCommand start length) (.awaitPayload start length b []) .more
  | collected {start : StartByte} {length command : UInt8} {body : Bytes}
    (h : body.length + 1 < length.toNat + checksumSize) :
    Fed filter b (.awaitPayload start length command body)
      (.awaitPayload start length command (body ++ [b])) .more
  | completed {start : StartByte} {length command : UInt8} {body : Bytes} {f : Frame}
    (h : f.toBytes = start.toByte :: length :: command :: (body ++ [b])) :
    Fed filter b (.awaitPayload start length command body) (.ready f) .complete
  | mismatched {start : StartByte} {length command : UInt8} {body : Bytes} :
    Fed filter b (.awaitPayload start length command body) .idle (.rejected .checksumMismatch)
  | kept {f : Frame} : Fed filter b (.ready f) (.ready f) .more
  | dropped : Fed filter b .consumed .consumed .more

theorem verify_cases (start : StartByte) {length : UInt8} (command : UInt8) {body : Bytes}
    (hl : length.toNat ≤ maxPayload) (hb : body.length = length.toNat + checksumSize) :
    (∃ f, verify start length command body = (.ready f, .complete) ∧
      f.toBytes = start.toByte :: length :: command :: body) ∨
    verify start length command body = (.idle, .rejected .checksumMismatch) := by
  rw [verify_eq hl hb]
  split
  · next hsum => exact .inl ⟨_, rfl, Frame.toBytes_of_checksum hl hb hsum⟩
  · exact .inr rfl

theorem fed_of_opens {seen : Bytes} {phase : Phase} (h : Opens filter seen phase) (b : UInt8) :
    Fed filter b phase (feed ⟨filter, phase⟩ b).1.phase (feed ⟨filter, phase⟩ b).2 := by
  cases h with
  | nothing =>
    cases hb : filter.accept b with
    | none =>
      simp only [feed, advance, hb]
      exact .skipped hb
    | some start =>
      simp only [feed, advance, hb]
      exact .started hb
  | start _ =>
    simp only [feed, advance]
    split
    · next ho =>
      refine .overlong ?_
      simp only [bufferSize, checksumSize, maxPayload] at *
      omega
    · next ho =>
      refine .length ?_
      simp only [bufferSize, checksumSize, maxPayload] at *
      omega
  | length _ _ => exact .command
  | @body _ length command start body _ hl hb =>
    rw [feed_body hl hb]
    split
    · next hmore => exact .collected hmore
    · -- With this byte the body is as long as was announced.
      have hfull : (body ++ [b]).length = length.toNat + checksumSize := by
        rw [List.length_append, List.length_singleton]
        omega
      rcases verify_cases start command hl hfull with ⟨f, hv, hf⟩ | hv
      · simp only [hv]
        exact .completed hf
      · simp only [hv]
        exact .mismatched

/-- A byte that leaves a frame unfinished belongs to it, and the last one makes it whole. -/
theorem opens_fed {seen : Bytes} {phase next : Phase} {reception : Reception}
    (h : Opens filter seen phase) (hf : Fed filter b phase next reception) (hne : next ≠ .idle) :
    (reception = .more ∧ Opens filter (seen ++ [b]) next) ∨
      ∃ f, reception = .complete ∧ next = .ready f ∧ f.toBytes = seen ++ [b] := by
  cases h with
  | nothing =>
    cases hf with
    | skipped _ => exact absurd rfl hne
    | started hb => exact .inl ⟨rfl, .start hb⟩
  | start hb =>
    cases hf with
    | overlong _ => exact absurd rfl hne
    | length hl => exact .inl ⟨rfl, .length hb hl⟩
  | length hb hl =>
    cases hf with
    | command => exact .inl ⟨rfl, .body hb hl (by simp [checksumSize])⟩
  | body hb hl _ =>
    cases hf with
    | collected hmore =>
      exact .inl ⟨rfl, .body hb hl (by simpa using hmore)⟩
    | @completed _ _ _ _ f hbytes =>
      refine .inr ⟨f, rfl, rfl, ?_⟩
      rw [hbytes, StartFilter.toByte_of_accept hb]
      rfl
    | mismatched => exact absurd rfl hne

section Inversion

variable {phase next : Phase} {reception : Reception}

theorem Fed.moves (h : Fed filter b phase next reception) :
    Moves phase.state next.state reception := by
  cases h with
  | skipped _ => exact .stays
  | started _ => exact .forward rfl nofun
  | overlong _ => exact .fails _ (.inl rfl)
  | length _ => exact .forward rfl nofun
  | command => exact .forward rfl nofun
  | collected _ => exact .stays
  | completed _ => exact .completes rfl
  | mismatched => exact .fails _ (.inr rfl)
  | kept => exact .stays
  | dropped => exact .stays

theorem Fed.idle_of_rejected (h : Fed filter b phase next reception) {e : FrameError}
    (hr : reception = .rejected e) : next = .idle := by
  cases h with
  | overlong _ => rfl
  | mismatched => rfl
  | _ => cases hr

theorem Fed.overflow_iff (h : Fed filter b phase next reception) :
    reception = .rejected .overflow ↔ phase.state = .awaitLength ∧ 94 < b.toNat := by
  cases h with
  | overlong hl => exact iff_of_true rfl ⟨rfl, hl⟩
  | length hl => exact iff_of_false nofun fun hn => Nat.not_lt.2 hl hn.2
  | _ => exact iff_of_false nofun fun hn => nomatch hn.1

end Inversion

/-! ## Longer feeds -/

/-- The bytes that a longer feed takes in. -/
def intake (r : Receiver) : Bytes → Bytes
  | [] => []
  | b :: rest =>
    match r.feed b with
    | (r, .more) => b :: r.intake rest
    | _ => [b]

theorem isPrefix_intake (r : Receiver) (bs : Bytes) : r.intake bs <+: bs := by
  induction bs generalizing r with
  | nil => exact List.prefix_refl []
  | cons b rest ih =>
    rw [intake]
    cases r.feed b with | mk next reception =>
    cases reception with
    | more => exact List.cons_prefix_cons.2 ⟨rfl, ih next⟩
    | _ => exact List.cons_prefix_cons.2 ⟨rfl, List.nil_prefix⟩

/-- A longer feed leads to where the feeds of what it takes in lead. -/
theorem run_intake (r : Receiver) (bs : Bytes) :
    (run perform r ((r.intake bs).map .feed)).1 = (r.feedUntil bs).1 := by
  induction bs generalizing r with
  | nil => rfl
  | cons b rest ih =>
    rw [intake, feedUntil]
    cases hf : r.feed b with | mk next reception =>
    cases reception with
    | more =>
      have hi := ih next
      simp only [List.map_cons, run, perform, hf, hi]
      cases next.feedUntil rest with | mk last result =>
      cases result <;> rfl
    | complete => simp only [List.map_cons, List.map_nil, run, perform, hf]
    | rejected e => simp only [List.map_cons, List.map_nil, run, perform, hf]

/-- A longer feed that fails has come to a byte that failed. -/
theorem feedUntil_error {r : Receiver} {bs : Bytes} {e : FrameError}
    (h : (r.feedUntil bs).2 = .error e) :
    ∃ front b rest, bs = front ++ b :: rest ∧
      ((run perform r (front.map .feed)).1.feed b).2 = .rejected e ∧
      (r.feedUntil bs).1 = ((run perform r (front.map .feed)).1.feed b).1 := by
  induction bs generalizing r with
  | nil => cases h
  | cons b rest ih =>
    rw [feedUntil] at h ⊢
    cases hf : r.feed b with | mk next reception =>
    rw [hf] at h
    cases reception with
    | more =>
      cases hu : next.feedUntil rest with | mk last result =>
      simp only [hu] at h
      cases result with
      | ok n => cases h
      | error e' =>
        obtain ⟨front, c, more, hsplit, hc, hlast⟩ := ih (by rw [hu]; exact h)
        rw [hu] at hlast
        refine ⟨b :: front, c, more, by rw [hsplit]; rfl, ?_, ?_⟩
        · simp only [List.map_cons, run, perform, hf]
          exact hc
        · simp only [List.map_cons, run, perform, hf, hu]
          exact hlast
    | complete => cases h
    | rejected e' =>
      refine ⟨[], b, rest, rfl, ?_, ?_⟩
      · simp only [List.map_nil, run, hf]
        cases h
        rfl
      · simp only [List.map_nil, run, hf]

/-! ## Dropping -/

theorem feed_dropped {r : Receiver} (h : r.phase.state = .ready ∨ r.phase.state = .consumed)
    (b : UInt8) : r.feed b = (r, .more) := by
  obtain ⟨filter, phase⟩ := r
  cases phase with
  | ready f => rfl
  | consumed => rfl
  | _ => simp [Phase.state] at h

theorem feedUntil_dropped {r : Receiver} (h : ∀ b, r.feed b = (r, .more)) (bs : Bytes) :
    r.feedUntil bs = (r, .ok none) := by
  induction bs with
  | nil => rfl
  | cons b rest ih =>
    rw [feedUntil, h b]
    simp only [ih]
    rfl

/-! ## Completing -/

/-- A byte, or one of several, completed a frame. -/
def Outcome.isCompletion : Outcome → Bool
  | .fed .complete => true
  | .fedUntil (.ok (some _)) => true
  | _ => false

theorem isReady_feed_eq {r : Receiver} (h : r.isReady = false) (b : UInt8) :
    (r.feed b).1.isReady = (Outcome.fed (r.feed b).2).isCompletion := by
  rw [Bool.eq_iff_iff, isReady_feed h]
  cases (r.feed b).2 <;> simp [Outcome.isCompletion]

theorem isReady_feedUntil_eq {r : Receiver} (h : r.isReady = false) (bs : Bytes) :
    (r.feedUntil bs).1.isReady = (Outcome.fedUntil (r.feedUntil bs).2).isCompletion := by
  induction bs generalizing r with
  | nil => exact h
  | cons b rest ih =>
    have hb := isReady_feed_eq h b
    rw [feedUntil]
    cases hf : r.feed b with | mk next reception =>
    rw [hf] at hb
    cases reception with
    | complete => exact hb
    | rejected e => exact hb
    | more =>
      have hi := ih (r := next) hb
      simp only
      cases hu : next.feedUntil rest with | mk last result =>
      rw [hu] at hi
      cases result with
      | error e => exact hi
      | ok n => cases n <;> exact hi

end Receiver

end GimbalLink
