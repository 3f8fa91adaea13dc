import GimbalLink.Proofs.Frame.Feeding
/-
  Any use of a receiver.

  An owner may feed, take and reset in any order, at any moment, and byte by byte or in longer
  pieces. A history of such uses is told in single ones (`unrolled`).

  Along any history it is kept that the receiver is in the middle of the bytes that came since
  it left idle, or holds the frame that they made up (`Standing`). To have come back to idle is
  to begin anew: nothing that was fed before counts.

  What is proved:
    1. `after_unrolled`: a history and its single uses lead to the same receiver.
    2. `Stands.feed`, `Stands.take`, `Stands.reset`, `stands_unrolled`: every history stands.
    3. `taken_perform_le`, `countP_taken_le`: no more frames are taken than were completed.
    4. `run_dependable`: what follows for every use, at every moment of every run.
-/
namespace GimbalLink

namespace Receiver

variable {filter : StartFilter} {b : UInt8}

/-- The receiver after a run from the start. -/
def after (filter : StartFilter) (ops : List Operation) : Receiver :=
  (run perform (ofFilter filter) ops).1

/-! ## Histories -/

/-- A use as single ones. -/
def singly (r : Receiver) : Operation → List Operation
  | .feedUntil bs => (r.intake bs).map .feed
  | op => [op]

/-- A history in single uses. -/
def unrolled (r : Receiver) : List Operation → List Operation
  | [] => []
  | op :: rest => r.singly op ++ (r.perform op).1.unrolled rest

def Operation.byte? : Operation → Option UInt8
  | .feed b => some b
  | _ => none

/-- The receiver has left idle with the first of these uses, if there is one, and has not come
back. -/
structure Underway (filter : StartFilter) (before during : List Operation) : Prop where
  idle : (after filter before).phase = .idle
  not_idle : ∀ p, p ≠ [] → p <+: during → (after filter (before ++ p)).phase ≠ .idle

/-- A frame is what was fed from the start byte that left idle on, to the byte that completed it;
and since then nothing was done but feed. -/
structure Delivery (filter : StartFilter) (history before during : List Operation) (last : UInt8)
    (rest : List Operation) (f : Frame) : Prop where
  split : history = before ++ during ++ .feed last :: rest
  underway : Underway filter before during
  completes : ((after filter (before ++ during)).feed last).2 = .complete
  encoded : f.encode = .ok (during.filterMap Operation.byte? ++ [last])
  only_fed : ∀ op ∈ rest, ∃ b, op = .feed b

def Outcome.isTaken : Outcome → Bool
  | .taken (some _) => true
  | _ => false

/-- What holds of a receiver after any use. -/
structure Dependable (filter : StartFilter) (ops : List Operation) : Prop where
  /-- Kept in registers, the receiver never reads or writes outside its buffer. -/
  in_bounds : ∃ x, run? Registers.perform? (.ofFilter filter) ops =
      some (x, (run perform (ofFilter filter) ops).2) ∧
    x.view = after filter ops ∧ x.state = (after filter ops).phase.state
  /-- The only byte for which there is no room is a length above the greatest. -/
  overflow_iff : ∀ b, ((after filter ops).feed b).2 = .rejected .overflow ↔
    (after filter ops).phase.state = .awaitLength ∧ 94 < b.toNat
  /-- A byte that shows the frame in progress to be bad leaves the receiver as it was made. -/
  idle_of_rejected : ∀ b e, ((after filter ops).feed b).2 = .rejected e →
    ((after filter ops).feed b).1 = ofFilter filter
  /-- So does a longer feed that fails, for it stops at such a byte. -/
  idle_of_error : ∀ bs e, ((after filter ops).feedUntil bs).2 = .error e →
    ((after filter ops).feedUntil bs).1 = ofFilter filter ∧
    ∃ front b rest, bs = front ++ b :: rest ∧
      ((after filter (ops ++ front.map .feed)).feed b).2 = .rejected e
  /-- A longer feed is so many single ones. -/
  intake : ∀ bs, (after filter ops).intake bs <+: bs ∧
    after filter (ops ++ ((after filter ops).intake bs).map .feed) =
      after filter (ops ++ [.feedUntil bs])
  /-- One step at a time, and never back but to idle. -/
  moves : ∀ b, Moves (after filter ops).phase.state ((after filter ops).feed b).1.phase.state
    ((after filter ops).feed b).2
  /-- A complete frame, or one that was taken, makes the receiver drop what is fed. -/
  dropped : (after filter ops).phase.state = .ready ∨ (after filter ops).phase.state = .consumed →
    (∀ b, (after filter ops).feed b = (after filter ops, .more)) ∧
    ∀ bs, (after filter ops).feedUntil bs = (after filter ops, .ok none)
  take_isSome_iff : (after filter ops).take.2.isSome ↔ (after filter ops).phase.state = .ready
  /-- No frame is taken that was not completed, and none twice. -/
  taken_le : (run perform (ofFilter filter) ops).2.countP Outcome.isTaken ≤
    (run perform (ofFilter filter) ops).2.countP Outcome.isCompletion
  /-- What is taken is what was fed. -/
  delivered : ∀ f, (after filter ops).take.2 = some f → ∃ before during last rest,
    Delivery filter ((ofFilter filter).unrolled ops) before during last rest f

theorem after_append (filter : StartFilter) (a b : List Operation) :
    after filter (a ++ b) = (run perform (after filter a) b).1 := by
  rw [after, run_append]
  rfl

theorem after_concat (filter : StartFilter) (ops : List Operation) (op : Operation) :
    after filter (ops ++ [op]) = ((after filter ops).perform op).1 :=
  after_append filter ops [op]

theorem run_singly (r : Receiver) (op : Operation) :
    (run perform r (r.singly op)).1 = (r.perform op).1 := by
  cases op with
  | feedUntil bs => exact r.run_intake bs
  | _ => rfl

theorem run_unrolled (r : Receiver) (ops : List Operation) :
    (run perform r (r.unrolled ops)).1 = (run perform r ops).1 := by
  induction ops generalizing r with
  | nil => rfl
  | cons op rest ih =>
    rw [unrolled, run_append, run_singly]
    exact ih _

/-- A history and its single uses lead to the same receiver. -/
theorem after_unrolled (filter : StartFilter) (ops : List Operation) :
    after filter ((ofFilter filter).unrolled ops) = after filter ops :=
  run_unrolled _ ops

/-! ## Where a history stands -/

theorem underway_nil {before : List Operation} (h : (after filter before).phase = .idle) :
    Underway filter before [] where
  idle := h
  not_idle := by
    intro p hne hp
    exact absurd (List.prefix_nil.1 hp) hne

theorem Underway.concat {before during : List Operation} {op : Operation}
    (h : Underway filter before during)
    (hne : (after filter (before ++ (during ++ [op]))).phase ≠ .idle) :
    Underway filter before (during ++ [op]) where
  idle := h.idle
  not_idle := by
    intro p hp hle
    rcases List.prefix_concat_iff.1 hle with rfl | hshort
    · exact hne
    · exact h.not_idle p hp hshort

theorem Delivery.concat {history before during rest : List Operation} {last : UInt8} {f : Frame}
    (h : Delivery filter history before during last rest f) (b : UInt8) :
    Delivery filter (history ++ [.feed b]) before during last (rest ++ [.feed b]) f where
  split := by
    rw [h.split]
    simp
  underway := h.underway
  completes := h.completes
  encoded := h.encoded
  only_fed := by
    intro op hop
    rcases List.mem_append.1 hop with hop | hop
    · exact h.only_fed op hop
    · exact ⟨b, List.mem_singleton.1 hop⟩

/-- What a history of single uses has led to. -/
inductive Standing (filter : StartFilter) (history : List Operation) : Phase → Prop where
  /-- Since idle was left, these bytes came, and they are no frame yet. -/
  | unfinished {before during : List Operation} {phase : Phase} (hs : history = before ++ during)
    (hu : Underway filter before during)
    (ho : Opens filter (during.filterMap Operation.byte?) phase) : Standing filter history phase
  | ready {before during rest : List Operation} {last : UInt8} {f : Frame}
    (hd : Delivery filter history before during last rest f) : Standing filter history (.ready f)
  | consumed : Standing filter history .consumed

/-- A use that does not lead back to idle carries an unfinished frame on. -/
theorem Underway.standing_concat {before during : List Operation} {op : Operation} {next : Phase}
    (h : Underway filter before during)
    (hafter : after filter (before ++ during ++ [op]) = ⟨filter, next⟩) (hne : next ≠ .idle)
    (ho : Opens filter ((during ++ [op]).filterMap Operation.byte?) next) :
    Standing filter (before ++ during ++ [op]) next := by
  rw [List.append_assoc] at hafter ⊢
  refine .unfinished rfl (h.concat ?_) ho
  rw [hafter]
  exact hne

theorem isReady_of_opens {seen : Bytes} {phase : Phase} (h : Opens filter seen phase) :
    isReady ⟨filter, phase⟩ = false := by
  cases h <;> rfl

/-- The receiver stands as its history says, and its filter is the one it was made with. -/
def Stands (filter : StartFilter) (history : List Operation) : Prop :=
  ∃ phase, after filter history = ⟨filter, phase⟩ ∧ Standing filter history phase

theorem stands_idle {history : List Operation} (h : after filter history = ofFilter filter) :
    Stands filter history := by
  refine ⟨.idle, h, ?_⟩
  exact .unfinished (List.append_nil history).symm (underway_nil (by rw [h]; rfl)) .nothing

namespace Stands

variable {history : List Operation}

theorem fed (h : Stands filter history) (b : UInt8) :
    Fed filter b (after filter history).phase ((after filter history).feed b).1.phase
      ((after filter history).feed b).2 := by
  obtain ⟨phase, hr, hs⟩ := h
  rw [hr]
  cases hs with
  | unfinished _ _ ho => exact fed_of_opens ho b
  | ready _ => exact .kept
  | consumed => exact .dropped

theorem filter_feed (h : Stands filter history) (b : UInt8) :
    ((after filter history).feed b).1 = ⟨filter, ((after filter history).feed b).1.phase⟩ := by
  obtain ⟨phase, hr, -⟩ := h
  rw [hr]
  rfl

theorem feed (h : Stands filter history) (b : UInt8) : Stands filter (history ++ [.feed b]) := by
  have hf := h.fed b
  have hafter : after filter (history ++ [.feed b]) = ((after filter history).feed b).1 :=
    after_concat filter history (.feed b)
  rw [h.filter_feed] at hafter
  generalize ((after filter history).feed b).1.phase = next at hf hafter
  generalize hc : ((after filter history).feed b).2 = reception at hf
  by_cases hidle : next = .idle
  · -- Nothing that came before counts any more.
    subst hidle
    exact stands_idle hafter
  · refine ⟨next, hafter, ?_⟩
    obtain ⟨phase, hr, hs⟩ := h
    rw [hr] at hf
    cases hs with
    | @unfinished before during _ hs hu ho =>
      subst hs
      rcases opens_fed ho hf hidle with ⟨-, hopens⟩ | ⟨f, rfl, rfl, hbytes⟩
      · apply hu.standing_concat hafter hidle
        rw [List.filterMap_append]
        exact hopens
      · -- The frame is complete: these bytes and this one are all of it.
        refine .ready ⟨rfl, hu, hc, ?_, nofun⟩
        rw [f.encode_eq_ok, hbytes]
    | ready hd =>
      cases hf
      exact .ready (hd.concat b)
    | consumed =>
      cases hf
      exact .consumed

/-- A frame is taken from where it is ready, and nowhere else. -/
theorem take (h : Stands filter history) : Stands filter (history ++ [.take]) := by
  have hafter : after filter (history ++ [.take]) = (after filter history).take.1 :=
    after_concat filter history .take
  obtain ⟨phase, hr, hs⟩ := h
  rw [hr] at hafter
  cases hs with
  | @unfinished before during _ hs hu ho =>
    subst hs
    rw [take_of_not_ready (isReady_of_opens ho)] at hafter
    by_cases hidle : phase = .idle
    · subst hidle
      exact stands_idle hafter
    · refine ⟨phase, hafter, ?_⟩
      apply hu.standing_concat hafter hidle
      have hbytes : (during ++ [Operation.take]).filterMap Operation.byte? =
          during.filterMap Operation.byte? := by
        rw [List.filterMap_append]
        exact List.append_nil _
      rw [hbytes]
      exact ho
  | ready _ => exact ⟨.consumed, hafter, .consumed⟩
  | consumed => exact ⟨.consumed, hafter, .consumed⟩

theorem reset (h : Stands filter history) : Stands filter (history ++ [.reset]) := by
  obtain ⟨phase, hr, -⟩ := h
  apply stands_idle
  rw [after_concat, hr]
  rfl

theorem feeds (h : Stands filter history) (bs : Bytes) :
    Stands filter (history ++ bs.map .feed) := by
  induction bs generalizing history with
  | nil => simpa using h
  | cons b rest ih =>
    have hi := ih (h.feed b)
    simpa using hi

theorem singly (h : Stands filter history) (op : Operation) :
    Stands filter (history ++ (after filter history).singly op) := by
  cases op with
  | feed b => exact h.feed b
  | feedUntil bs => exact h.feeds _
  | take => exact h.take
  | reset => exact h.reset

theorem unrolled (h : Stands filter history) (ops : List Operation) :
    Stands filter (history ++ (after filter history).unrolled ops) := by
  induction ops generalizing history with
  | nil => simpa [Receiver.unrolled] using h
  | cons op rest ih =>
    have hi := ih (h.singly op)
    rw [after_append, run_singly] at hi
    simpa [Receiver.unrolled] using hi

end Stands

theorem stands_unrolled (filter : StartFilter) (ops : List Operation) :
    Stands filter ((ofFilter filter).unrolled ops) := by
  have hnew : Stands filter [] := stands_idle rfl
  exact hnew.unrolled ops

theorem fed_after (filter : StartFilter) (ops : List Operation) (b : UInt8) :
    Fed filter b (after filter ops).phase ((after filter ops).feed b).1.phase
      ((after filter ops).feed b).2 := by
  rw [← after_unrolled]
  exact (stands_unrolled filter ops).fed b

theorem idle_after_rejected {ops : List Operation} {e : FrameError}
    (h : ((after filter ops).feed b).2 = .rejected e) :
    ((after filter ops).feed b).1 = ofFilter filter := by
  have hidle := (fed_after filter ops b).idle_of_rejected h
  have hfilter := (stands_unrolled filter ops).filter_feed b
  rw [after_unrolled] at hfilter
  rw [hfilter, hidle]
  rfl

/-! ## Taking -/

theorem isReady_le {r next : Receiver} {o : Outcome}
    (h : r.isReady = false → next.isReady = o.isCompletion) :
    next.isReady.toNat ≤ o.isCompletion.toNat + r.isReady.toNat := by
  cases hr : r.isReady with
  | true => exact Nat.le_trans (Bool.toNat_le _) (Nat.le_add_left 1 _)
  | false =>
    rw [h hr]
    exact Nat.le_add_right _ _

/-- With a frame that waits counted in, no use takes more than it completes. -/
theorem taken_perform_le (r : Receiver) (op : Operation) :
    (r.perform op).2.isTaken.toNat + (r.perform op).1.isReady.toNat ≤
      (r.perform op).2.isCompletion.toNat + r.isReady.toNat := by
  cases op with
  | feed b =>
    rw [show (r.perform (.feed b)).2.isTaken = false from rfl, Bool.toNat_false, Nat.zero_add]
    exact isReady_le fun h => isReady_feed_eq h b
  | feedUntil bs =>
    rw [show (r.perform (.feedUntil bs)).2.isTaken = false from rfl, Bool.toNat_false,
      Nat.zero_add]
    exact isReady_le fun h => isReady_feedUntil_eq h bs
  | take =>
    simp only [perform, isReady_take]
    cases h : r.isReady with
    | true => exact Nat.le_trans (Bool.toNat_le _) (Nat.le_add_left 1 _)
    | false =>
      rw [take_of_not_ready h]
      exact Nat.le_refl 0
  | reset => exact Nat.zero_le _

theorem countP_taken_le (r : Receiver) (ops : List Operation) :
    (run perform r ops).2.countP Outcome.isTaken + (run perform r ops).1.isReady.toNat ≤
      (run perform r ops).2.countP Outcome.isCompletion + r.isReady.toNat := by
  induction ops generalizing r with
  | nil => exact Nat.le_refl _
  | cons op rest ih =>
    have hop := taken_perform_le r op
    have hrest := ih (r.perform op).1
    have hcount (p : Outcome → Bool) : (run perform r (op :: rest)).2.countP p =
        (run perform (r.perform op).1 rest).2.countP p + (p (r.perform op).2).toNat := by
      show List.countP p ((r.perform op).2 :: _) = _
      rw [List.countP_cons]
      cases p (r.perform op).2 <;> rfl
    rw [hcount, hcount]
    show _ + (run perform (r.perform op).1 rest).1.isReady.toNat ≤ _
    omega

theorem isSome_take_iff (r : Receiver) : r.take.2.isSome ↔ r.phase.state = .ready := by
  obtain ⟨filter, phase⟩ := r
  cases phase <;> simp [take, Phase.state]

/-! ## Runs -/

/-- Whatever was done with a receiver, in whatever order: it has kept to its buffer, and the one
byte that it has no room for is a length above the greatest; a byte moves it one step forward, or
not at all, or back to idle with an error; a frame that is ready can be taken, once, and then it
is, on the wire, just what was fed since the receiver left idle. -/
theorem run_dependable (filter : StartFilter) (ops : List Operation) : Dependable filter ops where
  in_bounds := Registers.run_registers filter ops
  overflow_iff b := (fed_after filter ops b).overflow_iff
  idle_of_rejected b e h := idle_after_rejected h
  idle_of_error := by
    intro bs e h
    obtain ⟨front, b, rest, hsplit, hb, hlast⟩ := feedUntil_error h
    rw [← after_append] at hb hlast
    exact ⟨hlast.trans (idle_after_rejected hb), front, b, rest, hsplit, hb⟩
  intake := by
    intro bs
    refine ⟨isPrefix_intake _ bs, ?_⟩
    rw [after_append, after_concat, run_intake]
    rfl
  moves b := (fed_after filter ops b).moves
  dropped := by
    intro h
    exact ⟨feed_dropped h, feedUntil_dropped (feed_dropped h)⟩
  take_isSome_iff := isSome_take_iff _
  taken_le := Nat.le_trans (Nat.le_add_right _ _) (countP_taken_le (ofFilter filter) ops)
  delivered := by
    intro f h
    obtain ⟨phase, hr, hs⟩ := stands_unrolled filter ops
    rw [after_unrolled] at hr
    rw [hr] at h
    cases hs with
    | unfinished _ _ ho =>
      rw [take_of_not_ready (isReady_of_opens ho)] at h
      cases h
    | @ready before during rest last g hd =>
      cases h
      exact ⟨before, during, last, rest, hd⟩
    | consumed => cases h

end Receiver

end GimbalLink
