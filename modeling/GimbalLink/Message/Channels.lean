import GimbalLink.Bytes
/-
  Sixteen channel values of eleven bits each, packed without gaps.

  Both directions pass through a queue of bits: packing puts a channel in at the
  high end and takes whole bytes out at the low end; unpacking puts bytes in until
  a channel can be taken out.

  What is proved: draining takes out every whole byte (`drainFrom_counts`), a packed
  block has its stated size (`length_packChannels`), and unpacking always gives
  sixteen values (`length_unpackFrom`).
-/
namespace GimbalLink

/-- Channels in a block. -/
def channelCount : Nat := 16

/-- Bits of a channel. -/
def channelBits : Nat := 11

/-- The largest value a channel can carry. -/
def channelMax : UInt16 := 0x07ff

/-- Bytes of a packed block. -/
def packedSize : Nat := channelCount * channelBits / 8

/-- The value as a channel carries it: what is too large becomes the largest. -/
def clampChannel (v : UInt16) : UInt16 := min v channelMax

abbrev ChannelBlock := Vector UInt16 channelCount

/-- Bits in transit, the oldest lowest. -/
structure BitQueue where
  word : UInt32
  count : Nat
  deriving DecidableEq, Repr

namespace BitQueue

def empty : BitQueue := ⟨0, 0⟩

/-- Puts `width` bits behind those that wait. -/
def push (q : BitQueue) (width : Nat) (v : UInt32) : BitQueue :=
  ⟨q.word ||| (v <<< UInt32.ofNat q.count), q.count + width⟩

/-- Drops the `width` oldest bits. -/
def drop (q : BitQueue) (width : Nat) : BitQueue :=
  ⟨q.word >>> UInt32.ofNat width, q.count - width⟩

/-- The whole bytes among `count` waiting bits, and what is left. -/
def drainFrom (word : UInt32) : Nat → Bytes × BitQueue
  | count + 8 =>
    let next := drainFrom (word >>> 8) count
    (word.toUInt8 :: next.1, next.2)
  | count => ([], ⟨word, count⟩)

def drain (q : BitQueue) : Bytes × BitQueue := drainFrom q.word q.count

/-- Takes up to `n` bytes in until a channel waits; a missing byte counts as zero. -/
def refill : Nat → BitQueue → Bytes → BitQueue × Bytes
  | 0, q, bs => (q, bs)
  | n + 1, q, bs =>
    if q.count < channelBits then refill n (q.push 8 (bs.headD 0).toUInt32) bs.tail
    else (q, bs)

/-- Draining takes out every whole byte and leaves fewer than eight bits. -/
theorem drainFrom_counts (word : UInt32) (count : Nat) :
    (drainFrom word count).1.length = count / 8 ∧ (drainFrom word count).2.count = count % 8 := by
  fun_induction drainFrom word count with
  | case1 word count next ih =>
    have hd : (count + 8) / 8 = count / 8 + 1 := by omega
    have hm : (count + 8) % 8 = count % 8 := by omega
    rw [hd, hm, ← ih.1, ← ih.2]
    exact ⟨rfl, rfl⟩
  | case2 word count h =>
    have hc : count < 8 := by
      rcases Nat.lt_or_ge count 8 with hc | hc
      · exact hc
      · exact absurd (Nat.sub_add_cancel hc).symm (fun e => h (count - 8) e)
    exact ⟨(Nat.div_eq_of_lt hc).symm, (Nat.mod_eq_of_lt hc).symm⟩

end BitQueue

/-- The bytes that channels add to the bits already waiting. -/
def packFrom (q : BitQueue) : List UInt16 → Bytes
  | [] => []
  | c :: rest =>
    let next := (q.push channelBits (clampChannel c).toUInt32).drain
    next.1 ++ packFrom next.2 rest

def packChannels (channels : ChannelBlock) : Bytes := packFrom .empty channels.toList

/-- Behind the bits that wait, channels pack to as many whole bytes as all the bits
fill. -/
theorem length_packFrom (q : BitQueue) (cs : List UInt16) (h : q.count < 8) :
    (packFrom q cs).length = (q.count + channelBits * cs.length) / 8 := by
  induction cs generalizing q with
  | nil => simp [packFrom]; omega
  | cons c rest ih =>
    have hd := BitQueue.drainFrom_counts (q.push channelBits (clampChannel c).toUInt32).word
      (q.push channelBits (clampChannel c).toUInt32).count
    have hr : (q.push channelBits (clampChannel c).toUInt32).drain.2.count < 8 := by
      rw [BitQueue.drain, hd.2]; omega
    rw [packFrom, List.length_append, ih _ hr, BitQueue.drain, hd.1, hd.2]
    simp only [BitQueue.push, channelBits, List.length_cons]
    omega

@[simp] theorem length_packChannels (channels : ChannelBlock) :
    (packChannels channels).length = packedSize := by
  rw [packChannels, length_packFrom _ _ (by decide), Vector.length_toList]
  rfl

/-- `n` channels from the bits already waiting and the bytes behind them. Two bytes
always make up a channel. -/
def unpackFrom : Nat → BitQueue → Bytes → List UInt16
  | 0, _, _ => []
  | n + 1, q, bs =>
    let next := q.refill 2 bs
    (next.1.word.toUInt16 &&& channelMax) :: unpackFrom n (next.1.drop channelBits) next.2

theorem length_unpackFrom (n : Nat) (q : BitQueue) (bs : Bytes) :
    (unpackFrom n q bs).length = n := by
  induction n generalizing q bs with
  | zero => rfl
  | succ n ih => simp [unpackFrom, ih]

def unpackChannels (packed : Bytes) : ChannelBlock :=
  ⟨(unpackFrom channelCount .empty packed).toArray, by
    rw [List.size_toArray, length_unpackFrom]⟩

end GimbalLink
