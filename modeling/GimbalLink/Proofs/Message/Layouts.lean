import GimbalLink.Message.CommandLayout
/-
  Readers of fixed length.

  Such a reader takes as many bytes as its layout has, whatever they are, and is at a loss
  only where there are fewer (`Reader.Spans`). What it makes of them writes the same bytes
  again. A layout is put together from its fields, and so is this (`Spans.bind`).

  What is proved:
    1. `Spans.exactly_of_eq`, `Spans.exactly_of_ne`: as a whole an input is read just if it
       has the length of the layout.
    2. `spans_word16`, `spans_binary32` and the like: the fields.
-/
namespace GimbalLink

namespace Reader

variable {α β : Type} {r : Reader α} {n m : Nat} {Q : Bytes → α → Prop}

/-- Where there are `n` bytes or more the reader takes just `n`, and these and what it reads
stand in the relation. Where there are fewer it fails. -/
structure Spans (r : Reader α) (n : Nat) (R : Bytes → α → Prop) : Prop where
  short {bs : Bytes} (h : bs.length < n) : r bs = none
  full {bs : Bytes} (h : bs.length = n) (rest : Bytes) :
    ∃ a, r (bs ++ rest) = some (a, rest) ∧ R bs a

namespace Spans

theorem pure' {R : Bytes → α → Prop} {a : α} (h : R [] a) : Spans (pure a) 0 R where
  short h := absurd h (Nat.not_lt_zero _)
  full hb rest := ⟨a, by rw [List.eq_nil_of_length_eq_zero hb]; rfl,
    by rwa [List.eq_nil_of_length_eq_zero hb]⟩

theorem bind {k : α → Reader β} {R : Bytes → β → Prop} (h : Spans r n Q)
    (hk : ∀ bs a, bs.length = n → Q bs a → Spans (k a) m fun cs b => R (bs ++ cs) b) :
    Spans (r >>= k) (n + m) R where
  short := by
    intro bs hb
    show (r bs).bind (fun x => k x.1 x.2) = none
    by_cases hn : bs.length < n
    · rw [h.short hn, Option.bind_none]
    · have hfront : (bs.take n).length = n := List.length_take_of_le (Nat.le_of_not_lt hn)
      obtain ⟨a, ha, hq⟩ := h.full hfront (bs.drop n)
      rw [List.take_append_drop] at ha
      rw [ha, Option.bind_some]
      apply (hk _ a hfront hq).short
      rw [List.length_drop]
      omega
  full := by
    intro bs hb rest
    have hfront : (bs.take n).length = n := List.length_take_of_le (by omega)
    have hback : (bs.drop n).length = m := by rw [List.length_drop]; omega
    obtain ⟨a, ha, hq⟩ := h.full hfront (bs.drop n ++ rest)
    obtain ⟨b, hb', hr⟩ := (hk _ a hfront hq).full hback rest
    rw [← List.append_assoc, List.take_append_drop] at ha
    rw [List.take_append_drop] at hr
    refine ⟨b, ?_, hr⟩
    show (r (bs ++ rest)).bind (fun x => k x.1 x.2) = _
    rw [ha, Option.bind_some, hb']

/-- A field that writes what it was read from stands in front of the others. -/
theorem field {w : α → Bytes} {k : α → Reader β} {R : Bytes → β → Prop}
    (h : Spans r n fun bs a => bs = w a)
    (hk : ∀ a, Spans (k a) m fun cs b => R (w a ++ cs) b) : Spans (r >>= k) (n + m) R := by
  refine h.bind fun bs a _ hbs => ?_
  subst hbs
  exact hk a

theorem map {f : α → β} {R : Bytes → β → Prop} (h : Spans r n Q)
    (hR : ∀ bs a, bs.length = n → Q bs a → R bs (f a)) : Spans (do return f (← r)) n R :=
  h.bind (m := 0) fun bs a hb hq => .pure' (by
    rw [List.append_nil]
    exact hR bs a hb hq)

theorem exactly_of_eq {R : Bytes → α → Prop} (h : Spans r n R) {bs : Bytes} (hb : bs.length = n) :
    ∃ a, r.exactly bs = some a ∧ R bs a := by
  obtain ⟨a, ha, hr⟩ := h.full hb []
  rw [List.append_nil] at ha
  exact ⟨a, by simp only [exactly, ha], hr⟩

theorem exactly_of_ne {R : Bytes → α → Prop} (h : Spans r n R) {bs : Bytes} (hb : bs.length ≠ n) :
    r.exactly bs = none := by
  rcases Nat.lt_or_gt_of_ne hb with hlt | hgt
  · simp only [exactly, h.short hlt]
  · have hfront : (bs.take n).length = n := List.length_take_of_le (Nat.le_of_lt hgt)
    obtain ⟨a, ha, -⟩ := h.full hfront (bs.drop n)
    rw [List.take_append_drop] at ha
    -- What stands behind the layout is left over.
    obtain ⟨b, rest, hrest⟩ : ∃ b rest, bs.drop n = b :: rest :=
      List.exists_cons_of_length_pos (by rw [List.length_drop]; omega)
    simp only [exactly, ha, hrest]

theorem exactly_bind {k : α → Reader β} (h : Spans r n Q) {bs : Bytes} (hb : n ≤ bs.length) :
    ∃ a, Q (bs.take n) a ∧ (r >>= k).exactly bs = (k a).exactly (bs.drop n) := by
  obtain ⟨a, ha, hq⟩ := h.full (List.length_take_of_le hb) (bs.drop n)
  rw [List.take_append_drop] at ha
  have hrun : (r >>= k) bs = k a (bs.drop n) := by
    show (r bs).bind (fun x => k x.1 x.2) = _
    rw [ha, Option.bind_some]
  exact ⟨a, hq, by simp only [exactly, hrun]⟩

theorem exactly_bind_of_short {k : α → Reader β} (h : Spans r n Q) {bs : Bytes}
    (hb : bs.length < n) : (r >>= k).exactly bs = none := by
  have hrun : (r >>= k) bs = none := by
    show (r bs).bind (fun x => k x.1 x.2) = _
    rw [h.short hb, Option.bind_none]
  simp only [exactly, hrun]

end Spans

/-! ## Fields -/

theorem spans_take (n : Nat) : Spans (take n) n fun bs a => a = bs where
  short h := if_neg (Nat.not_le.2 h)
  full := by
    intro bs h rest
    exact ⟨bs, reads_take h rest, rfl⟩

theorem spans_byte : Spans byte 1 fun bs b => bs = [b] where
  short := by
    intro bs h
    rw [List.eq_nil_of_length_eq_zero (Nat.lt_one_iff.1 h)]
    rfl
  full := by
    intro bs h rest
    obtain ⟨b, rfl⟩ := List.length_eq_one_iff.1 h
    exact ⟨b, rfl, rfl⟩

theorem spans_word16 : Spans word16 2 fun bs w => bs = GimbalLink.word16 w :=
  (spans_take 2).map fun bs a hb ha => by
    subst ha
    exact (word16_leValue hb).symm

theorem word32_leValue {bs : Bytes} (h : bs.length = 4) :
    GimbalLink.word32 (UInt32.ofNat (leValue bs)) = bs := by
  have hv := leValue_lt bs
  rw [h] at hv
  have ht : (UInt32.ofNat (leValue bs)).toNat = leValue bs := by
    rw [UInt32.toNat_ofNat']
    exact Nat.mod_eq_of_lt hv
  rw [GimbalLink.word32, ht, ← h, leBytes_leValue]

theorem spans_word32 : Spans word32 4 fun bs w => bs = GimbalLink.word32 w :=
  (spans_take 4).map fun bs a hb ha => by
    subst ha
    exact (word32_leValue hb).symm

theorem spans_binary32 : Spans binary32 4 fun bs x => bs = x.toBytes :=
  spans_word32.map fun _ _ _ h => h

theorem spans_quaternion : Spans quaternion 16 fun bs q => bs = q.toBytes := by
  have h : Spans quaternion (4 + (4 + (4 + (4 + 0)))) fun bs q => bs = q.toBytes :=
    spans_binary32.field fun _ => spans_binary32.field fun _ => spans_binary32.field fun _ =>
      spans_binary32.field fun _ => .pure' (by simp [Quaternion.toBytes])
  exact h

theorem spans_velocity : Spans velocity 12 fun bs v => bs = v.toBytes := by
  have h : Spans velocity (4 + (4 + (4 + 0))) fun bs v => bs = v.toBytes :=
    spans_binary32.field fun _ => spans_binary32.field fun _ => spans_binary32.field fun _ =>
      .pure' (by simp [Velocity.toBytes])
  exact h

theorem spans_sentLocation : Spans sentLocation 14 fun bs p => bs = p.toBytes := by
  have hplace : Spans location (4 + (4 + (4 + 0))) fun bs l => bs =
      GimbalLink.word32 l.latitude.toUInt32 ++ GimbalLink.word32 l.longitude.toUInt32 ++
        GimbalLink.word32 l.altitude.toUInt32 :=
    spans_word32.field fun _ => spans_word32.field fun _ => spans_word32.field fun _ =>
      .pure' (by simp)
  have h : Spans sentLocation (12 + (2 + 0)) fun bs p => bs = p.toBytes :=
    hplace.field fun _ => spans_word16.field fun _ => .pure' (by simp [SentLocation.toBytes])
  exact h

/-- The third byte is not looked at, and is written as zero. -/
theorem spans_linkStatus : Spans linkStatus 33 fun bs s => bs.set 2 0 = s.toBytes := by
  have h : Spans linkStatus (1 + (1 + (1 + (2 + (16 + (12 + 0)))))) fun bs s =>
      bs.set 2 0 = s.toBytes :=
    spans_byte.field fun _ => spans_byte.field fun _ => spans_byte.field fun _ =>
      spans_word16.field fun _ => spans_quaternion.field fun _ => spans_velocity.field fun _ =>
        .pure' (by simp [LinkStatus.toBytes])
  exact h

end Reader

end GimbalLink
