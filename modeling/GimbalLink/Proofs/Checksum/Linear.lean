import GimbalLink.Checksum
import Mathlib.Algebra.Group.Nat.Defs
/-
  The checksum is linear.

  One shift of the register maps an exclusive or to the exclusive or of the images, and it
  loses nothing: only the empty register is shifted to the empty one. So errors in some
  bytes leave a trace of their own in the register (`extend_xor`), which is what the errors
  alone leave in a register that was empty before them.

  Bytes are read a bit at a time as well (`extend_eq_extendBits`), lowest bit first, which
  is how they go over the wire.

  What is proved:
    1. `extend_xor`: the register over bytes with errors is the one over the bytes plus the
       one over the errors.
    2. `extend_word16_eq_zero_iff`: two bytes empty the register just if they are the
       register that stood before them. So what stands before its checksum leaves nothing.
    3. `extend_eq_extendBits`: a byte entered at once is its eight bits entered in turn.
-/
namespace GimbalLink

/-- The `n` lowest bits of a number, lowest first. -/
def bits (n v : Nat) : List Bool := (List.range n).map v.testBit

/-- The bits of some bytes as they go over the wire. -/
def wireBits (bs : Bytes) : List Bool := bs.flatMap fun b => bits 8 b.toNat

theorem bits_succ (n v : Nat) : bits (n + 1) v = v.testBit 0 :: bits n (v / 2) := by
  simp [bits, List.range_succ_eq_map, Nat.testBit_succ]

/-- Numbers that share no bit are added by exclusive or. -/
theorem xor_two_pow_mul {n w : Nat} (h : w < 2 ^ n) (v : Nat) : w ^^^ 2 ^ n * v = w + 2 ^ n * v := by
  rw [Nat.add_comm, Nat.two_pow_add_eq_or_of_lt h]
  apply Nat.eq_of_testBit_eq
  intro i
  rw [Nat.testBit_xor, Nat.testBit_or, Nat.testBit_two_pow_mul]
  by_cases hi : n ≤ i
  · rw [Nat.testBit_lt_two_pow (Nat.lt_of_lt_of_le h (Nat.pow_le_pow_right (by decide) hi))]
    simp
  · simp [hi]

theorem ofNat_add_two_pow_mul {n w : Nat} (h : w < 2 ^ n) (v : Nat) :
    UInt16.ofNat (w + 2 ^ n * v) = UInt16.ofNat w ^^^ UInt16.ofNat (2 ^ n * v) := by
  rw [← xor_two_pow_mul h, UInt16.ofNat_xor]

theorem length_wireBits (bs : Bytes) : (wireBits bs).length = 8 * bs.length := by
  induction bs with
  | nil => rfl
  | cons b rest ih =>
    have hc : (wireBits (b :: rest)).length = 8 + (wireBits rest).length := by
      simp [wireBits, bits]
    rw [hc, ih, List.length_cons]
    omega

namespace Checksum

/-- One bit enters the register, and one leaves it. -/
def stepBit (register : UInt16) (bit : Bool) : UInt16 := shift (register ^^^ bit.toUInt16)

/-- The register after some more bits. -/
def extendBits (register : UInt16) (bs : List Bool) : UInt16 := bs.foldl stepBit register

/-! ## One shift -/

theorem and_one_eq_one_iff (r : UInt16) : r &&& 1 = 1 ↔ r.toNat % 2 = 1 := by
  rw [← UInt16.toNat_inj, UInt16.toNat_and]
  show r.toNat &&& 1 = 1 ↔ r.toNat % 2 = 1
  rw [Nat.and_one_is_mod]

theorem toNat_shiftRight_one (r : UInt16) : (r >>> 1).toNat = r.toNat / 2 := by
  rw [UInt16.toNat_shiftRight]
  exact Nat.shiftRight_succ _ 0

theorem shift_xor (r s : UInt16) : shift (r ^^^ s) = shift r ^^^ shift s := by
  have hb : (r ^^^ s) &&& 1 = 1 ↔ ¬(r &&& 1 = 1 ↔ s &&& 1 = 1) := by
    simp only [and_one_eq_one_iff, UInt16.toNat_xor]
    exact Nat.xor_mod_two_eq_one
  unfold shift
  rw [UInt16.shiftRight_xor]
  -- The polynomial comes in for each word whose lowest bit is set; twice it cancels.
  by_cases hr : r &&& 1 = 1
  · by_cases hs : s &&& 1 = 1
    · rw [if_pos hr, if_pos hs, if_neg (by rw [hb]; simp [hr, hs])]
      calc r >>> 1 ^^^ s >>> 1
          = r >>> 1 ^^^ s >>> 1 ^^^ (polynomial ^^^ polynomial) := by
            rw [UInt16.xor_self, UInt16.xor_zero]
        _ = (r >>> 1 ^^^ polynomial) ^^^ (s >>> 1 ^^^ polynomial) := by ac_rfl
    · rw [if_pos hr, if_neg hs, if_pos (by rw [hb]; simp [hr, hs])]
      ac_rfl
  · by_cases hs : s &&& 1 = 1
    · rw [if_neg hr, if_pos hs, if_pos (by rw [hb]; simp [hr, hs])]
      ac_rfl
    · rw [if_neg hr, if_neg hs, if_neg (by rw [hb]; simp [hr, hs])]

theorem shift_eq_zero_iff (r : UInt16) : shift r = 0 ↔ r = 0 := by
  constructor
  · intro h
    unfold shift at h
    split at h
    · -- The polynomial has the highest bit set, and what was shifted has not.
      have hp := congrArg UInt16.toNat (UInt16.xor_eq_zero_iff.1 h)
      have hr := r.toNat_lt
      rw [toNat_shiftRight_one] at hp
      change r.toNat / 2 = 0x8408 at hp
      omega
    · next hb =>
      have hz := congrArg UInt16.toNat h
      rw [toNat_shiftRight_one] at hz
      change r.toNat / 2 = 0 at hz
      rw [and_one_eq_one_iff] at hb
      apply UInt16.toNat_inj.1
      show r.toNat = 0
      omega
  · rintro rfl
    rfl

theorem shift_ofNat_two_mul {w : Nat} (h : 2 * w < 2 ^ 16) :
    shift (UInt16.ofNat (2 * w)) = UInt16.ofNat w := by
  have hv : (UInt16.ofNat (2 * w)).toNat = 2 * w := UInt16.toNat_ofNat_of_lt' h
  have hb : ¬UInt16.ofNat (2 * w) &&& 1 = 1 := by
    rw [and_one_eq_one_iff, hv]
    omega
  rw [shift, if_neg hb]
  apply UInt16.toNat_inj.1
  rw [toNat_shiftRight_one, hv, UInt16.toNat_ofNat_of_lt' (show w < 2 ^ 16 by omega)]
  omega

/-! ## Several shifts -/

theorem shifts_add (m n : Nat) (r : UInt16) : shifts (m + n) r = shifts n (shifts m r) := by
  induction m generalizing r with
  | zero => rw [Nat.zero_add]; rfl
  | succ m ih => rw [Nat.succ_add]; exact ih (shift r)

theorem shifts_xor (n : Nat) (r s : UInt16) : shifts n (r ^^^ s) = shifts n r ^^^ shifts n s := by
  induction n generalizing r s with
  | zero => rfl
  | succ n ih => rw [shifts, shift_xor, ih]; rfl

theorem shifts_eq_zero_iff (n : Nat) (r : UInt16) : shifts n r = 0 ↔ r = 0 := by
  induction n generalizing r with
  | zero => rfl
  | succ n ih => rw [shifts, ih, shift_eq_zero_iff]

theorem shifts_ofNat_mul {n w : Nat} (h : 2 ^ n * w < 2 ^ 16) :
    shifts n (UInt16.ofNat (2 ^ n * w)) = UInt16.ofNat w := by
  induction n with
  | zero => rw [Nat.pow_zero, Nat.one_mul]; rfl
  | succ n ih =>
    rw [Nat.pow_succ', Nat.mul_assoc] at h ⊢
    rw [shifts, shift_ofNat_two_mul h]
    apply ih
    omega

/-! ## Bytes -/

theorem step_xor (r s : UInt16) (a b : UInt8) :
    step (r ^^^ s) (a ^^^ b) = step r a ^^^ step s b := by
  unfold step
  rw [UInt8.toUInt16_xor, ← shifts_xor]
  congr 1
  ac_rfl

theorem extend_cons (r : UInt16) (b : UInt8) (rest : Bytes) :
    extend r (b :: rest) = extend (step r b) rest := rfl

theorem extend_xor (r s : UInt16) {a b : Bytes} (h : a.length = b.length) :
    extend (r ^^^ s) (List.zipWith (· ^^^ ·) a b) = extend r a ^^^ extend s b := by
  induction a generalizing b r s with
  | nil =>
    obtain rfl : b = [] := List.length_eq_zero_iff.1 h.symm
    rfl
  | cons x a ih =>
    cases b with
    | nil => cases h
    | cons y b =>
      have hl : a.length = b.length := Nat.succ.inj h
      calc extend (r ^^^ s) (List.zipWith (· ^^^ ·) (x :: a) (y :: b))
          = extend (step (r ^^^ s) (x ^^^ y)) (List.zipWith (· ^^^ ·) a b) := rfl
        _ = extend (step r x) a ^^^ extend (step s y) b := by rw [step_xor, ih _ _ hl]

theorem extend_zeros (r : UInt16) (n : Nat) : extend r (List.replicate n 0) = shifts (8 * n) r := by
  induction n generalizing r with
  | zero => rfl
  | succ n ih =>
    have hs : step r 0 = shifts 8 r := congrArg (shifts 8) UInt16.xor_zero
    calc extend r (List.replicate (n + 1) 0)
        = extend (step r 0) (List.replicate n 0) := rfl
      _ = shifts (8 * n) (shifts 8 r) := by rw [ih, hs]
      _ = shifts (8 * (n + 1)) r := by rw [← shifts_add, Nat.mul_succ, Nat.add_comm]

/-- Two bytes enter the register as one word. -/
theorem extend_pair (r : UInt16) (a b : UInt8) :
    extend r [a, b] = shifts 16 (r ^^^ UInt16.ofNat (leValue [a, b])) := by
  have hb := b.toNat_lt
  have hshift : shifts 8 (UInt16.ofNat (2 ^ 8 * b.toNat)) = b.toUInt16 := by
    rw [← UInt16.ofNat_uInt8ToNat]
    apply shifts_ofNat_mul
    omega
  have hword : UInt16.ofNat (leValue [a, b]) =
      a.toUInt16 ^^^ UInt16.ofNat (2 ^ 8 * b.toNat) := by
    have hl : leValue [a, b] = a.toNat + 2 ^ 8 * b.toNat := by simp [leValue]
    rw [hl, ofNat_add_two_pow_mul a.toNat_lt, UInt16.ofNat_uInt8ToNat]
  calc extend r [a, b]
      = shifts 8 (shifts 8 (r ^^^ a.toUInt16) ^^^ b.toUInt16) := rfl
    _ = shifts 8 (shifts 8 (r ^^^ a.toUInt16 ^^^ UInt16.ofNat (2 ^ 8 * b.toNat))) := by
      rw [shifts_xor 8 (r ^^^ a.toUInt16), hshift]
    _ = shifts 16 (r ^^^ UInt16.ofNat (leValue [a, b])) := by
      rw [← shifts_add, UInt16.xor_assoc, hword]

theorem extend_word16_eq_zero_iff (r w : UInt16) : extend r (word16 w) = 0 ↔ w = r := by
  obtain ⟨a, b, hw⟩ : ∃ a b, word16 w = [a, b] := ⟨_, _, rfl⟩
  have hv : UInt16.ofNat (leValue [a, b]) = w := by
    rw [← hw, leValue_word16, UInt16.ofNat_toNat]
  rw [hw, extend_pair, hv, shifts_eq_zero_iff, UInt16.xor_eq_zero_iff]
  exact eq_comm

/-! ## Bits -/

theorem extendBits_cons (r : UInt16) (b : Bool) (rest : List Bool) :
    extendBits r (b :: rest) = extendBits (stepBit r b) rest := rfl

theorem extendBits_append (r : UInt16) (a b : List Bool) :
    extendBits r (a ++ b) = extendBits (extendBits r a) b := List.foldl_append

theorem extendBits_bits {n v : Nat} (hn : n ≤ 16) (hv : v < 2 ^ n) (r : UInt16) :
    extendBits r (bits n v) = shifts n (r ^^^ UInt16.ofNat v) := by
  induction n generalizing v r with
  | zero =>
    obtain rfl : v = 0 := by simpa using hv
    exact UInt16.xor_zero.symm
  | succ n ih =>
    have hp : 2 ^ (n + 1) ≤ 2 ^ 16 := Nat.pow_le_pow_right (by decide) hn
    have hq : v / 2 < 2 ^ n := by
      rw [Nat.pow_succ] at hv
      omega
    -- The lowest bit enters on its own, and the rest of the word one shift later.
    have hlow : UInt16.ofNat (v % 2) = (v.testBit 0).toUInt16 := by
      rw [Nat.testBit_zero]
      rcases Nat.mod_two_eq_zero_or_one v with h | h <;> rw [h] <;> rfl
    have hsplit : UInt16.ofNat v = (v.testBit 0).toUInt16 ^^^ UInt16.ofNat (2 * (v / 2)) := by
      have hj := ofNat_add_two_pow_mul (show v % 2 < 2 ^ 1 from Nat.mod_lt v (by decide)) (v / 2)
      rw [Nat.pow_one, Nat.mod_add_div] at hj
      rw [hj, hlow]
    calc extendBits r (bits (n + 1) v)
        = extendBits (stepBit r (v.testBit 0)) (bits n (v / 2)) := by rw [bits_succ]; rfl
      _ = shifts n (shift (r ^^^ (v.testBit 0).toUInt16) ^^^ UInt16.ofNat (v / 2)) := by
        rw [ih (by omega) hq]
        rfl
      _ = shifts n (shift (r ^^^ (v.testBit 0).toUInt16 ^^^ UInt16.ofNat (2 * (v / 2)))) := by
        rw [shift_xor (r ^^^ _), shift_ofNat_two_mul (by omega)]
      _ = shifts (n + 1) (r ^^^ UInt16.ofNat v) := by
        rw [UInt16.xor_assoc, ← hsplit]
        rfl

theorem extend_eq_extendBits (r : UInt16) (bs : Bytes) :
    extend r bs = extendBits r (wireBits bs) := by
  induction bs generalizing r with
  | nil => rfl
  | cons b rest ih =>
    have hb : extendBits r (bits 8 b.toNat) = step r b := by
      rw [extendBits_bits (by decide) b.toNat_lt, UInt16.ofNat_uInt8ToNat]
      rfl
    calc extend r (b :: rest)
        = extend (step r b) rest := rfl
      _ = extendBits (extendBits r (bits 8 b.toNat)) (wireBits rest) := by rw [ih, hb]
      _ = extendBits r (wireBits (b :: rest)) := by
        rw [← extendBits_append]
        rfl

theorem extendBits_zeros (r : UInt16) (n : Nat) :
    extendBits r (List.replicate n false) = shifts n r := by
  induction n generalizing r with
  | zero => rfl
  | succ n ih =>
    have hs : stepBit r false = shift r := congrArg shift UInt16.xor_zero
    calc extendBits r (List.replicate (n + 1) false)
        = extendBits (stepBit r false) (List.replicate n false) := rfl
      _ = shifts (n + 1) r := by rw [ih, hs]; rfl

end Checksum

end GimbalLink
