import GimbalLink.Proofs.Message.PackedChannels
/-
  Packed channels bit by bit.

  The bytes of a block and its channels are digits of one number, eight bits to a byte and
  eleven to a channel. A bit of the number lies in the digit that its place falls into, and
  that settles which bit of which channel a bit of the block is.

  The queue between bytes and channels is one word of 32 bits. `packChannels?` and
  `unpackChannels?` do the same work and look at every step: they give up where a shift
  would push a set bit out of the word, where a byte would be written behind the end of the
  block, or where a byte is wanted and none is left.

  What is proved:
    1. `testBit_ofDigits`: where a bit of a number lies in its digits.
    2. `packChannels_unpackChannels`: every block of bytes is that of its channels.
    3. `packFrom?_eq`, `unpackFrom?_eq`: what looks at every step never gives up.
    4. `packs_without_gaps`: blocks of bytes and capped channels are the same thing, bit for
       bit, and no step on the way loses anything.
-/
namespace GimbalLink

/-! ## Bits of a number and of its digits -/

/-- A bit of a number is a bit of the digit that its place falls into. -/
theorem testBit_ofDigits {w : Nat} (hw : 0 < w) {ds : List Nat} (h : ∀ d ∈ ds, d < 2 ^ w)
    (k : Nat) : (Nat.ofDigits (2 ^ w) ds).testBit k = (ds.getD (k / w) 0).testBit (k % w) := by
  induction ds generalizing k with
  | nil => simp
  | cons d rest ih =>
    have hd : d < 2 ^ w := h d List.mem_cons_self
    rw [Nat.ofDigits_cons, Nat.add_comm, Nat.testBit_two_pow_mul_add _ hd]
    by_cases hk : k < w
    · rw [if_pos hk, Nat.div_eq_of_lt hk, Nat.mod_eq_of_lt hk, List.getD_cons_zero]
    · have hle : w ≤ k := Nat.le_of_not_lt hk
      rw [if_neg hk, ih fun e he => h e (List.mem_cons_of_mem d he), Nat.div_eq_sub_div hw hle,
        Nat.mod_eq_sub_mod hle, List.getD_cons_succ]

/-- The same where the digits are those of some values, and a missing value has none. -/
theorem testBit_ofDigits_map {α : Type} {w : Nat} (hw : 0 < w) {value : α → Nat} {missing : α}
    (hm : value missing = 0) {xs : List α} (h : ∀ x ∈ xs, value x < 2 ^ w) (k : Nat) :
    (Nat.ofDigits (2 ^ w) (xs.map value)).testBit k =
      (value (xs.getD (k / w) missing)).testBit (k % w) := by
  have hlt : ∀ d ∈ xs.map value, d < 2 ^ w := by
    intro d hd
    obtain ⟨x, hx, rfl⟩ := List.mem_map.1 hd
    exact h x hx
  have hget : (xs.map value).getD (k / w) 0 = value (xs.getD (k / w) missing) := by
    rw [List.getD_eq_getElem?_getD, List.getD_eq_getElem?_getD, List.getElem?_map, ← hm]
    exact Option.getD_map value missing _
  rw [testBit_ofDigits hw hlt, hget]

/-- Bit `k` of some bytes, the lowest bit of the first byte being bit 0. -/
def bitAt (bs : Bytes) (k : Nat) : Bool := (bs.getD (k / 8) 0).toNat.testBit (k % 8)

theorem testBit_leValue (bs : Bytes) (k : Nat) : (leValue bs).testBit k = bitAt bs k := by
  have hz : (0 : UInt8).toNat = 0 := rfl
  have hlt : ∀ b ∈ bs, b.toNat < 2 ^ 8 := fun b _ => b.toNat_lt
  rw [leValue_eq_ofDigits]
  exact testBit_ofDigits_map (by decide) hz hlt k

theorem testBit_channelsValue {cs : List UInt16} (h : ∀ c ∈ cs, c.toNat < 2048) (k : Nat) :
    (channelsValue cs).testBit k =
      (cs.getD (k / channelBits) 0).toNat.testBit (k % channelBits) := by
  have hz : (0 : UInt16).toNat = 0 := rfl
  have hlt : ∀ c ∈ cs, c.toNat < 2 ^ channelBits := h
  exact testBit_ofDigits_map (by decide) hz hlt k

/-! ## From bytes to channels and back -/

theorem toNat_lt_of_mem_channelDigits {n v : Nat} {c : UInt16} (h : c ∈ channelDigits n v) :
    c.toNat < 2048 := by
  induction n generalizing v with
  | zero => exact absurd h List.not_mem_nil
  | succ n ih =>
    obtain rfl | h := List.mem_cons.1 h
    · rw [UInt16.toNat_ofNat']
      omega
    · exact ih h

theorem channelsValue_channelDigits (n v : Nat) :
    channelsValue (channelDigits n v) = v % 2048 ^ n := by
  induction n generalizing v with
  | zero => exact (Nat.mod_one v).symm
  | succ n ih =>
    have hd : (UInt16.ofNat (v % 2048)).toNat = v % 2048 := by
      rw [UInt16.toNat_ofNat']
      omega
    rw [channelDigits, channelsValue_cons, ih, hd, Nat.pow_succ', Nat.mod_mul]

theorem clampChannel_of_lt {c : UInt16} (h : c.toNat < 2048) : clampChannel c = c := by
  apply UInt16.toNat_inj.1
  rw [toNat_clampChannel]
  omega

/-- Every block of bytes is the packed form of the channels it is unpacked to. -/
theorem packChannels_unpackChannels {bs : Bytes} (h : bs.length = packedSize) :
    packChannels (unpackChannels bs) = bs := by
  have hclamp : (channelDigits channelCount (leValue bs)).map clampChannel =
      channelDigits channelCount (leValue bs) := by
    rw [List.map_congr_left fun c hc => clampChannel_of_lt (toNat_lt_of_mem_channelDigits hc),
      List.map_id']
  have hlt : leValue bs < 2048 ^ channelCount := by
    have hspan : 1 <<< (8 * packedSize) = 2048 ^ channelCount := by decide
    rw [← hspan, ← h]
    exact leValue_lt bs
  have hvalue : leValue (packChannels (unpackChannels bs)) = leValue bs := by
    rw [leValue_packChannels, toList_unpackChannels, hclamp, channelsValue_channelDigits,
      Nat.mod_eq_of_lt hlt]
  -- Bytes are told by their number and by how many they are.
  rw [← leBytes_leValue (packChannels (unpackChannels bs)), hvalue, length_packChannels, ← h,
    leBytes_leValue]

/-! ## Every step looked at -/

namespace BitQueue

/-- Puts bits behind those that wait, if all of them find room in the word. -/
def push? (q : BitQueue) (width : Nat) (v : UInt32) : Option BitQueue :=
  if q.count < 32 ∧ v.toNat <<< q.count < UInt32.size then some (q.push width v) else none

theorem push?_eq {q : BitQueue} {width : Nat} {v : UInt32} (hv : v.toNat < 2 ^ width)
    (hc : q.count + width < 32) : q.push? width v = some (q.push width v) :=
  if_pos ⟨by omega, shiftLeft_count_lt hv hc⟩

/-- Takes bytes in until a channel waits, if there are enough of them. -/
def refill? (q : BitQueue) : Bytes → Option (BitQueue × Bytes)
  | [] => if q.count < channelBits then none else some (q, [])
  | b :: rest => if q.count < channelBits then do refill? (← q.push? 8 b.toUInt32) rest
    else some (q, b :: rest)

theorem refill?_eq (n : Nat) {q : BitQueue} {bs : Bytes} (hn : channelBits ≤ q.count + 8 * n)
    (hb : channelBits ≤ q.count + 8 * bs.length) : q.refill? bs = some (q.refill n bs) := by
  induction n generalizing q bs with
  | zero =>
    have hw : ¬q.count < channelBits := by omega
    cases bs <;> simp only [refill?, refill, if_neg hw]
  | succ n ih =>
    by_cases hw : q.count < channelBits
    · cases bs with
      | nil => exact absurd hb (Nat.not_le.2 hw)
      | cons b rest =>
        have hp : q.push? 8 b.toUInt32 = some (q.push 8 b.toUInt32) :=
          push?_eq b.toNat_lt (Nat.lt_trans (Nat.add_lt_add_right hw 8) (by decide))
        have hi : (q.push 8 b.toUInt32).refill? rest = some ((q.push 8 b.toUInt32).refill n rest) :=
          ih (by simp only [push]; omega) (by
            simp only [push, List.length_cons] at hb ⊢
            omega)
        simp only [refill?, refill, if_pos hw, hp, Option.bind_eq_bind, Option.bind_some, hi,
          List.headD_cons, List.tail_cons]
    · cases bs <;> simp only [refill?, refill, if_neg hw]

/-- No bit gets lost on the way from the bytes to the queue. -/
theorem bits_refill (n : Nat) {q : BitQueue} {bs : Bytes}
    (hb : channelBits ≤ q.count + 8 * bs.length) :
    (q.refill n bs).1.count + 8 * (q.refill n bs).2.length = q.count + 8 * bs.length := by
  induction n generalizing q bs with
  | zero => rfl
  | succ n ih =>
    by_cases hw : q.count < channelBits
    · cases bs with
      | nil => exact absurd hb (Nat.not_le.2 hw)
      | cons b rest =>
        have hbits : (q.push 8 b.toUInt32).count + 8 * rest.length =
            q.count + 8 * (b :: rest).length := by
          simp only [push, List.length_cons]
          omega
        simp only [refill, if_pos hw, List.headD_cons, List.tail_cons]
        rw [ih (hbits ▸ hb), hbits]
    · simp only [refill, if_neg hw]

end BitQueue

/-- Packs behind the bits that wait, into a block that has room for so many bytes. -/
def packFrom? (room : Nat) (q : BitQueue) : List UInt16 → Option Bytes
  | [] => some []
  | c :: rest => do
    let next := (← q.push? channelBits (clampChannel c).toUInt32).drain
    if next.1.length ≤ room then
      return next.1 ++ (← packFrom? (room - next.1.length) next.2 rest)
    else none

def packChannels? (channels : ChannelBlock) : Option Bytes :=
  packFrom? packedSize .empty channels.toList

/-- Unpacks `n` channels, if there are bits enough for them. -/
def unpackFrom? : Nat → BitQueue → Bytes → Option (List UInt16)
  | 0, _, _ => some []
  | n + 1, q, bs => do
    let next ← q.refill? bs
    return (next.1.word.toUInt16 &&& channelMax) ::
      (← unpackFrom? n (next.1.drop channelBits) next.2)

def unpackChannels? (packed : Bytes) : Option (List UInt16) :=
  unpackFrom? channelCount .empty packed

theorem packFrom?_eq {room : Nat} {q : BitQueue} (hq : q.count < 8) {cs : List UInt16}
    (hr : (packFrom q cs).length ≤ room) : packFrom? room q cs = some (packFrom q cs) := by
  induction cs generalizing room q with
  | nil => rfl
  | cons c rest ih =>
    have hp : q.push? channelBits (clampChannel c).toUInt32 =
        some (q.push channelBits (clampChannel c).toUInt32) :=
      BitQueue.push?_eq (toNat_clampChannel_lt c)
        (Nat.lt_trans (Nat.add_lt_add_right hq channelBits) (by decide))
    have hc : (q.push channelBits (clampChannel c).toUInt32).drain.2.count < 8 := by
      rw [BitQueue.drain, (BitQueue.drainFrom_counts _ _).2]
      exact Nat.mod_lt _ (by decide)
    rw [packFrom, List.length_append] at hr
    have hi := ih hc (Nat.le_sub_of_add_le' hr)
    have hroom : (q.push channelBits (clampChannel c).toUInt32).drain.1.length ≤ room :=
      Nat.le_trans (Nat.le_add_right _ _) hr
    simp only [packFrom?, packFrom, hp, hi, if_pos hroom, Option.bind_eq_bind, Option.bind_some,
      Option.pure_def]

theorem unpackFrom?_eq {n : Nat} {q : BitQueue} (h : q.Tidy) {bs : Bytes}
    (hb : channelBits * n ≤ q.count + 8 * bs.length) :
    unpackFrom? n q bs = some (unpackFrom n q bs) := by
  induction n generalizing q bs with
  | zero => rfl
  | succ n ih =>
    have hc := h.count_lt
    have hone : channelBits ≤ q.count + 8 * bs.length :=
      Nat.le_trans (Nat.le_mul_of_pos_right _ n.succ_pos) hb
    have htwo : channelBits ≤ q.count + 8 * 2 := by
      simp only [channelBits]
      omega
    obtain ⟨h1, h2, h3, -⟩ := BitQueue.refill_spec 2 bs h.word_lt (by omega) htwo
    have hbits := BitQueue.bits_refill 2 hone
    have hrest : channelBits * n ≤
        ((q.refill 2 bs).1.drop channelBits).count + 8 * (q.refill 2 bs).2.length := by
      rw [Nat.mul_succ] at hb
      simp only [BitQueue.drop]
      omega
    have hi := ih (BitQueue.tidy_drop h1 h2 h3) hrest
    simp only [unpackFrom?, unpackFrom, BitQueue.refill?_eq 2 htwo hone, hi, Option.bind_eq_bind,
      Option.bind_some, Option.pure_def]

/-! ## Blocks and channels -/

/-- A block of bytes and sixteen capped channels are the same thing. What was packed is unpacked
to the channels, each capped, and what was unpacked is packed to the bytes. Bit for bit, the
channels stand one behind the other without a gap. And on neither way is a set bit pushed out of
the queue, a byte written behind the end of the block, or a byte missed. -/
theorem packs_without_gaps (channels : ChannelBlock) (block : Vector UInt8 packedSize) :
    (∀ c, (clampChannel c).toNat = min c.toNat 2047) ∧
      unpackChannels (packChannels channels) = channels.map clampChannel ∧
      packChannels (unpackChannels block.toList) = block.toList ∧
      (∀ k : Fin (channelBits * channelCount), bitAt (packChannels channels) k =
        (clampChannel (channels.get ⟨k / channelBits, Nat.div_lt_of_lt_mul k.isLt⟩)).toNat.testBit
          (k % channelBits)) ∧
      packChannels? channels = some (packChannels channels) ∧
      unpackChannels? block.toList = some (unpackChannels block.toList).toList := by
  have hblock : block.toList.length = packedSize := block.length_toList
  refine ⟨toNat_clampChannel, unpackChannels_packChannels channels,
    packChannels_unpackChannels hblock, fun k => ?_,
    packFrom?_eq (by decide) (Nat.le_of_eq (length_packChannels channels)),
    unpackFrom?_eq BitQueue.tidy_empty ?_⟩
  · have hk : k / channelBits < channelCount := Nat.div_lt_of_lt_mul k.isLt
    have hget : (channels.toList.map clampChannel).getD (k / channelBits) 0 =
        clampChannel (channels.get ⟨k / channelBits, hk⟩) := by
      have hlength : k / channelBits < (channels.toList.map clampChannel).length := by
        rwa [List.length_map, Vector.length_toList]
      rw [List.getD_eq_getElem?_getD, List.getElem?_eq_getElem hlength, Option.getD_some,
        List.getElem_map, Vector.getElem_toList]
      rfl
    rw [← testBit_leValue, leValue_packChannels,
      testBit_channelsValue fun _ => toNat_lt_of_mem_clamped, hget]
  · rw [hblock]
    decide

end GimbalLink
