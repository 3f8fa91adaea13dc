import GimbalLink.Message.Channels
import Mathlib.Data.Nat.Digits.Defs
/-
  Packed channels as one number.

  Bytes in order are the digits of a number to base 256, and channels in order are the
  digits of a number to base 2048 (`channelsValue`). Packing keeps the number, and so
  does unpacking: each writes it to the other base.

  A queue of bits stands between the two. The bits that wait are the low part of the
  number and what is still to come is its high part (`BitQueue.join`). Every operation
  on the queue moves digits from one part to the other, and the number is the same.

  What is proved:
    1. `leValue_packFrom`: the packed bytes have the value of the capped channels.
    2. `unpackFrom_eq_channelDigits`: unpacked channels are the digits of the bytes'
       value.
    3. `unpackChannels_packChannels`: unpacking what was packed gives the channels
       back, each capped.
-/
namespace GimbalLink

/-! ## Digits -/

theorem leValue_eq_ofDigits (bs : Bytes) :
    leValue bs = Nat.ofDigits 256 (bs.map UInt8.toNat) := by
  induction bs with
  | nil => rfl
  | cons b rest ih => rw [leValue, ih, List.map_cons, Nat.ofDigits_cons]

theorem leValue_append (a b : Bytes) :
    leValue (a ++ b) = leValue a + 256 ^ a.length * leValue b := by
  simp only [leValue_eq_ofDigits, List.map_append, Nat.ofDigits_append, List.length_map]

/-- The number whose digits to base 2048 are the channels, lowest first. -/
def channelsValue (cs : List UInt16) : Nat := Nat.ofDigits 2048 (cs.map UInt16.toNat)

theorem channelsValue_cons (c : UInt16) (rest : List UInt16) :
    channelsValue (c :: rest) = c.toNat + 2048 * channelsValue rest := by
  rw [channelsValue, List.map_cons, Nat.ofDigits_cons, channelsValue]

/-- The `n` lowest digits of a number to base 2048, lowest first. -/
def channelDigits : Nat → Nat → List UInt16
  | 0, _ => []
  | n + 1, v => UInt16.ofNat (v % 2048) :: channelDigits n (v / 2048)

theorem channelDigits_channelsValue {cs : List UInt16} (h : ∀ c ∈ cs, c.toNat < 2048) :
    channelDigits cs.length (channelsValue cs) = cs := by
  induction cs with
  | nil => rfl
  | cons c rest ih =>
    have hc := h c List.mem_cons_self
    have hd : (c.toNat + 2048 * channelsValue rest) / 2048 = channelsValue rest := by omega
    have hm : (c.toNat + 2048 * channelsValue rest) % 2048 = c.toNat := by omega
    rw [List.length_cons, channelsValue_cons, channelDigits, hd, hm, UInt16.ofNat_toNat,
      ih fun d hd => h d (List.mem_cons_of_mem c hd)]

theorem toNat_clampChannel (c : UInt16) : (clampChannel c).toNat = min c.toNat 2047 := by
  show (if c ≤ channelMax then c else channelMax).toNat = _
  by_cases h : c ≤ channelMax
  · have hle : c.toNat ≤ 2047 := UInt16.le_iff_toNat_le.1 h
    rw [if_pos h, Nat.min_eq_left hle]
  · have hle : 2047 ≤ c.toNat := Nat.le_of_not_le fun hn => h (UInt16.le_iff_toNat_le.2 hn)
    rw [if_neg h, Nat.min_eq_right hle]
    rfl

theorem toNat_clampChannel_lt (c : UInt16) : (clampChannel c).toNat < 2048 := by
  rw [toNat_clampChannel]
  omega

/-! ## Queues -/

namespace BitQueue

/-- Between two channels less than a byte waits, and no bit stands above what waits. -/
structure Tidy (q : BitQueue) : Prop where
  word_lt : q.word.toNat < 2 ^ q.count
  count_lt : q.count < 8

/-- The number that the waiting bits make with another above them. -/
def join (q : BitQueue) (high : Nat) : Nat := q.word.toNat + high * 2 ^ q.count

/-- A shift by less than the width of a word is a shift by that amount. -/
theorem toNat_amount {n : Nat} (h : n < 32) : (UInt32.ofNat n).toNat % 32 = n := by
  rw [UInt32.toNat_ofNat']
  omega

theorem toNat_shiftRight (word : UInt32) {n : Nat} (h : n < 32) :
    (word >>> UInt32.ofNat n).toNat = word.toNat / 2 ^ n := by
  rw [UInt32.toNat_shiftRight, toNat_amount h, Nat.shiftRight_eq_div_pow]

/-- Bits put behind those that wait have room in the word. -/
theorem shiftLeft_count_lt {width count v : Nat} (hv : v < 2 ^ width) (hc : count + width < 32) :
    v <<< count < 2 ^ 32 := by
  calc v <<< count
    _ = v * 2 ^ count := Nat.shiftLeft_eq v count
    _ < 2 ^ width * 2 ^ count := Nat.mul_lt_mul_of_pos_right hv (Nat.two_pow_pos count)
    _ = 2 ^ (width + count) := (Nat.pow_add 2 width count).symm
    _ ≤ 2 ^ 32 := Nat.pow_le_pow_right (by decide) (by omega)

theorem toNat_word_push {q : BitQueue} {width : Nat} {v : UInt32}
    (hq : q.word.toNat < 2 ^ q.count) (hv : v.toNat < 2 ^ width) (hc : q.count + width < 32) :
    (q.push width v).word.toNat = q.word.toNat + v.toNat * 2 ^ q.count := by
  rw [push, UInt32.toNat_or, UInt32.toNat_shiftLeft, toNat_amount (by omega),
    Nat.mod_eq_of_lt (shiftLeft_count_lt hv hc), Nat.or_comm,
    ← Nat.shiftLeft_add_eq_or_of_lt hq, Nat.shiftLeft_eq, Nat.add_comm]

theorem word_push_lt {q : BitQueue} {width : Nat} {v : UInt32}
    (hq : q.word.toNat < 2 ^ q.count) (hv : v.toNat < 2 ^ width) (hc : q.count + width < 32) :
    (q.push width v).word.toNat < 2 ^ (q.push width v).count := by
  rw [toNat_word_push hq hv hc]
  calc q.word.toNat + v.toNat * 2 ^ q.count
    _ < 2 ^ q.count + v.toNat * 2 ^ q.count := Nat.add_lt_add_right hq _
    _ = (v.toNat + 1) * 2 ^ q.count := by rw [Nat.add_mul, Nat.one_mul, Nat.add_comm]
    _ ≤ 2 ^ width * 2 ^ q.count := Nat.mul_le_mul_right _ hv
    _ = 2 ^ (q.count + width) := (Nat.pow_add' 2 q.count width).symm

theorem join_push {q : BitQueue} {width : Nat} {v : UInt32}
    (hq : q.word.toNat < 2 ^ q.count) (hv : v.toNat < 2 ^ width) (hc : q.count + width < 32)
    (high : Nat) : (q.push width v).join high = q.join (v.toNat + 2 ^ width * high) := by
  calc (q.push width v).join high
    _ = q.word.toNat + v.toNat * 2 ^ q.count + high * 2 ^ (q.count + width) := by
      rw [join, toNat_word_push hq hv hc]
      rfl
    _ = q.word.toNat + (v.toNat + 2 ^ width * high) * 2 ^ q.count := by
      rw [Nat.pow_add, Nat.add_mul, Nat.add_assoc, Nat.mul_comm (2 ^ width), Nat.mul_assoc,
        Nat.mul_comm (2 ^ q.count)]

theorem toNat_shiftRight_eight (word : UInt32) : (word >>> 8).toNat = word.toNat / 256 :=
  toNat_shiftRight word (by decide)

/-- The bytes drained are the low digits, and the rest still waits. -/
theorem join_drainFrom (word : UInt32) (count high : Nat) :
    join ⟨word, count⟩ high = leValue (drainFrom word count).1 +
      256 ^ (drainFrom word count).1.length * (drainFrom word count).2.join high := by
  fun_induction drainFrom word count with
  | case1 word count next ih =>
    have hn : drainFrom (word >>> 8) count = next := rfl
    have hb : word.toUInt8.toNat = word.toNat % 256 := UInt32.toNat_toUInt8 word
    rw [hn, join, toNat_shiftRight_eight] at ih
    calc join ⟨word, count + 8⟩ high
      _ = word.toNat + 2 ^ 8 * (high * 2 ^ count) := by
        rw [join, Nat.pow_add', Nat.mul_left_comm]
      _ = word.toNat % 256 + 256 * (word.toNat / 256 + high * 2 ^ count) := by
        omega
      _ = word.toUInt8.toNat +
          256 * (leValue next.1 + 256 ^ next.1.length * next.2.join high) := by
        rw [ih, hb]
      _ = _ := by
        rw [leValue, List.length_cons, Nat.pow_succ', Nat.mul_add, Nat.mul_assoc, Nat.add_assoc]
  | case2 word count h => simp [leValue]

theorem word_drainFrom_lt {word : UInt32} {count : Nat} (h : word.toNat < 2 ^ count) :
    (drainFrom word count).2.word.toNat < 2 ^ (drainFrom word count).2.count := by
  fun_induction drainFrom word count with
  | case1 word count next ih =>
    have hw : word.toNat < 2 ^ 8 * 2 ^ count := Nat.pow_add' 2 count 8 ▸ h
    apply ih
    rw [toNat_shiftRight_eight]
    omega
  | case2 word count _ => exact h

theorem tidy_drain {q : BitQueue} (h : q.word.toNat < 2 ^ q.count) : q.drain.2.Tidy where
  word_lt := word_drainFrom_lt h
  count_lt := by
    rw [drain, (drainFrom_counts q.word q.count).2]
    exact Nat.mod_lt _ (by decide)

theorem tidy_empty : empty.Tidy := ⟨by decide, by decide⟩

end BitQueue

/-! ## Packing -/

/-- Where the bits come out in whole bytes, the bytes packed have the value of the
channels, each capped. -/
theorem leValue_packFrom {q : BitQueue} (h : q.Tidy) (cs : List UInt16)
    (hn : (q.count + channelBits * cs.length) % 8 = 0) :
    leValue (packFrom q cs) = q.join (channelsValue (cs.map clampChannel)) := by
  induction cs generalizing q with
  | nil =>
    -- Less than a byte waits, and it is whole bytes: nothing waits.
    obtain ⟨hw, hc⟩ := h
    have hz : q.count = 0 := by
      rw [List.length_nil, Nat.mul_zero] at hn
      omega
    rw [hz] at hw
    have hw : q.word.toNat = 0 := Nat.lt_one_iff.1 hw
    simp [packFrom, leValue, BitQueue.join, channelsValue, hw]
  | cons c rest ih =>
    have hv : (clampChannel c).toUInt32.toNat < 2 ^ channelBits := toNat_clampChannel_lt c
    have hc : q.count + channelBits < 32 :=
      Nat.lt_trans (Nat.add_lt_add_right h.count_lt channelBits) (by decide)
    have hd := BitQueue.tidy_drain (BitQueue.word_push_lt h.word_lt hv hc)
    have hcount : (q.push channelBits (clampChannel c).toUInt32).drain.2.count =
        (q.count + channelBits) % 8 := (BitQueue.drainFrom_counts _ _).2
    have hi := ih hd (by
      rw [hcount, ← hn, List.length_cons]
      simp only [channelBits]
      omega)
    rw [packFrom, leValue_append, hi, BitQueue.drain, ← BitQueue.join_drainFrom]
    exact BitQueue.join_push h.word_lt hv hc _

/-! ## Unpacking -/

namespace BitQueue

/-- Taking bytes in until a channel waits keeps the number. -/
theorem refill_spec (n : Nat) {q : BitQueue} (bs : Bytes) (hq : q.word.toNat < 2 ^ q.count)
    (hc : q.count < 19) (hn : channelBits ≤ q.count + 8 * n) :
    (q.refill n bs).1.word.toNat < 2 ^ (q.refill n bs).1.count ∧
      channelBits ≤ (q.refill n bs).1.count ∧ (q.refill n bs).1.count < 19 ∧
      (q.refill n bs).1.join (leValue (q.refill n bs).2) = q.join (leValue bs) := by
  induction n generalizing q bs with
  | zero => exact ⟨hq, hn, hc, rfl⟩
  | succ n ih =>
    by_cases hw : q.count < channelBits
    · have hb : (bs.headD 0).toUInt32.toNat < 2 ^ 8 := (bs.headD 0).toNat_lt
      have hr : q.count + 8 < 19 := Nat.add_lt_add_right hw 8
      obtain ⟨h1, h2, h3, h4⟩ := ih bs.tail (word_push_lt hq hb (by omega)) hr (by
        show channelBits ≤ q.count + 8 + 8 * n
        omega)
      simp only [refill, if_pos hw]
      refine ⟨h1, h2, h3, ?_⟩
      rw [h4, join_push hq hb (by omega), leValue_eq_headD_tail bs]
      rfl
    · simp only [refill, if_neg hw]
      exact ⟨hq, Nat.le_of_not_lt hw, hc, trivial⟩

/-- Where a channel waits, what stands above the waiting bits stands above the channel. -/
theorem join_of_le {q : BitQueue} (hc : channelBits ≤ q.count) (high : Nat) :
    q.join high = q.word.toNat + 2048 * (high * 2 ^ (q.count - channelBits)) := by
  obtain ⟨k, hk⟩ := Nat.exists_eq_add_of_le' hc
  rw [join, hk, Nat.add_sub_cancel, Nat.pow_add', Nat.mul_left_comm]
  rfl

theorem channel_eq {q : BitQueue} (hc : channelBits ≤ q.count) (high : Nat) :
    q.word.toUInt16 &&& channelMax = UInt16.ofNat (q.join high % 2048) := by
  have hm (x : Nat) : x &&& 2047 = x % 2048 := Nat.and_two_pow_sub_one_eq_mod x 11
  apply UInt16.toNat_inj.1
  rw [UInt16.toNat_and, UInt32.toNat_toUInt16, UInt16.toNat_ofNat', join_of_le hc]
  show _ &&& 2047 = _
  rw [hm]
  omega

theorem join_drop {q : BitQueue} (hc : channelBits ≤ q.count) (high : Nat) :
    (q.drop channelBits).join high = q.join high / 2048 := by
  rw [drop, join, toNat_shiftRight _ (by decide), join_of_le hc,
    Nat.add_mul_div_left _ _ (by decide)]
  rfl

theorem tidy_drop {q : BitQueue} (hq : q.word.toNat < 2 ^ q.count) (hc : channelBits ≤ q.count)
    (hlt : q.count < 19) : (q.drop channelBits).Tidy where
  word_lt := by
    obtain ⟨k, hk⟩ := Nat.exists_eq_add_of_le' hc
    rw [hk, Nat.pow_add'] at hq
    rw [drop, toNat_shiftRight _ (by decide), hk, Nat.add_sub_cancel]
    exact Nat.div_lt_of_lt_mul hq
  count_lt := by
    show q.count - channelBits < 8
    simp only [channelBits] at *
    omega

end BitQueue

/-- Unpacked channels are the digits of the number that the waiting bits make with the
bytes above them. -/
theorem unpackFrom_eq_channelDigits {q : BitQueue} (h : q.Tidy) (n : Nat) (bs : Bytes) :
    unpackFrom n q bs = channelDigits n (q.join (leValue bs)) := by
  induction n generalizing q bs with
  | zero => rfl
  | succ n ih =>
    have hc := h.count_lt
    -- Two bytes always do: less than eight bits wait, and a channel has eleven.
    obtain ⟨h1, h2, h3, h4⟩ := BitQueue.refill_spec 2 bs h.word_lt (by omega) (by
      simp only [channelBits]
      omega)
    rw [unpackFrom, channelDigits, BitQueue.channel_eq h2 (leValue (q.refill 2 bs).2), h4,
      ih (BitQueue.tidy_drop h1 h2 h3), BitQueue.join_drop h2, h4]

theorem BitQueue.join_empty (high : Nat) : empty.join high = high := by
  simp [join, empty]

theorem leValue_packChannels (channels : ChannelBlock) :
    leValue (packChannels channels) = channelsValue (channels.toList.map clampChannel) := by
  have h := leValue_packFrom BitQueue.tidy_empty channels.toList (by
    rw [Vector.length_toList]
    decide)
  rw [packChannels, h, BitQueue.join_empty]

theorem toList_unpackChannels (bs : Bytes) :
    (unpackChannels bs).toList = channelDigits channelCount (leValue bs) := by
  have h := unpackFrom_eq_channelDigits BitQueue.tidy_empty channelCount bs
  rw [BitQueue.join_empty] at h
  exact h

theorem toNat_lt_of_mem_clamped {cs : List UInt16} {c : UInt16} (h : c ∈ cs.map clampChannel) :
    c.toNat < 2048 := by
  obtain ⟨d, -, rfl⟩ := List.mem_map.1 h
  exact toNat_clampChannel_lt d

theorem unpackChannels_packChannels (channels : ChannelBlock) :
    unpackChannels (packChannels channels) = channels.map clampChannel := by
  have hlt : ∀ c ∈ channels.toList.map clampChannel, c.toNat < 2048 :=
    fun _ => toNat_lt_of_mem_clamped
  have hd := channelDigits_channelsValue hlt
  rw [List.length_map, Vector.length_toList] at hd
  apply Vector.toList_inj.1
  rw [Vector.toList_map, toList_unpackChannels, leValue_packChannels, hd]

end GimbalLink
