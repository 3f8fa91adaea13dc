import GimbalLink.Frame.Basic
import GimbalLink.Proofs.Checksum.Linear
import Mathlib.Data.List.Iterate
/-
  Errors that the checksum notices.

  What some errors leave in an empty register is their remainder, and errors go unnoticed
  just if it is zero. Three kinds of errors never have a remainder of zero, each for a
  reason of its own.

  What is proved:
    1. `extendBits_ne_zero_of_odd`: an odd number of bits. The parity of the register and
       of the bits that enter it is kept, for the polynomial has an odd number of bits too.
    2. `extendBits_ne_zero_of_two`: two bits, however far apart in a frame. The second
       bit would have to meet the first where it entered the register, and a bit does not
       come back there within the length of a frame (`shifts_one_ne_one`).
    3. `extend_ne_zero_of_inTwoBytes`: any bits of two bytes side by side, which fit the
       register, and no shift loses anything.
-/
namespace GimbalLink

/-- How many bits of some bytes are set. -/
def weight (bs : Bytes) : Nat := (wireBits bs).count true

/-- No bit is set but in two bytes that stand side by side. -/
def InTwoBytes (e : Bytes) : Prop :=
  ∃ i x y j, e = List.replicate i 0 ++ [x, y] ++ List.replicate j 0

/-- Whether an odd number of the bits is set. -/
def parity (bs : List Bool) : Bool := bs.foldr xor false

theorem parity_append (a b : List Bool) : parity (a ++ b) = (parity a ^^ parity b) := by
  induction a with
  | nil => exact (Bool.false_xor _).symm
  | cons x rest ih =>
    show (x ^^ parity (rest ++ b)) = ((x ^^ parity rest) ^^ parity b)
    rw [ih, Bool.xor_assoc]

theorem parity_eq_count (bs : List Bool) : parity bs = decide (bs.count true % 2 = 1) := by
  induction bs with
  | nil => rfl
  | cons b rest ih =>
    show (b ^^ parity rest) = _
    rw [ih]
    cases b with
    | false => rw [Bool.false_xor, List.count_cons_of_ne (by decide)]
    | true =>
      rw [Bool.true_xor, List.count_cons_self, ← decide_not]
      apply decide_eq_decide.2
      omega

theorem bits_succ' (n v : Nat) : bits (n + 1) v = bits n v ++ [v.testBit n] := by
  rw [bits, List.range_succ, List.map_append]
  rfl

theorem parity_bits_xor (n v w : Nat) :
    parity (bits n (v ^^^ w)) = (parity (bits n v) ^^ parity (bits n w)) := by
  induction n with
  | zero => rfl
  | succ n ih =>
    have one (b : Bool) : parity [b] = b := Bool.xor_false b
    simp only [bits_succ', parity_append, ih, one, Nat.testBit_xor, Bool.xor_assoc]
    rw [Bool.xor_left_comm (v.testBit n)]

namespace Checksum

/-! ## An odd number of errors -/

/-- Whether an odd number of the register's bits is set. -/
def registerParity (r : UInt16) : Bool := parity (bits 16 r.toNat)

theorem registerParity_xor (r s : UInt16) :
    registerParity (r ^^^ s) = (registerParity r ^^ registerParity s) := by
  rw [registerParity, UInt16.toNat_xor]
  exact parity_bits_xor 16 _ _

/-- The bit that leaves the register is the only one that is missed. -/
theorem registerParity_shiftRight (r : UInt16) :
    (r.toNat.testBit 0 ^^ registerParity (r >>> 1)) = registerParity r := by
  have hlow : parity (bits 17 r.toNat) = (r.toNat.testBit 0 ^^ registerParity (r >>> 1)) := by
    rw [bits_succ, registerParity, toNat_shiftRight_one]
    rfl
  have hhigh : parity (bits 17 r.toNat) = registerParity r := by
    have hz : r.toNat.testBit 16 = false := Nat.testBit_lt_two_pow r.toNat_lt
    rw [bits_succ', hz, parity_append]
    exact Bool.xor_false _
  rw [← hlow, hhigh]

theorem registerParity_shift (r : UInt16) : registerParity (shift r) = registerParity r := by
  rw [← registerParity_shiftRight r]
  unfold shift
  by_cases hb : r &&& 1 = 1
  · have ht : r.toNat.testBit 0 = true := by
      rw [Nat.testBit_zero]
      exact decide_eq_true ((and_one_eq_one_iff r).1 hb)
    have hp : registerParity polynomial = true := by decide
    rw [if_pos hb, registerParity_xor, hp, ht, Bool.xor_comm]
  · have ht : r.toNat.testBit 0 = false := by
      rw [Nat.testBit_zero]
      exact decide_eq_false fun h => hb ((and_one_eq_one_iff r).2 h)
    rw [if_neg hb, ht, Bool.false_xor]

theorem registerParity_extendBits (r : UInt16) (bs : List Bool) :
    registerParity (extendBits r bs) = (registerParity r ^^ parity bs) := by
  induction bs generalizing r with
  | nil => exact (Bool.xor_false _).symm
  | cons b rest ih =>
    have hb : registerParity b.toUInt16 = b := by cases b <;> decide
    calc registerParity (extendBits r (b :: rest))
        = (registerParity (stepBit r b) ^^ parity rest) := ih _
      _ = ((registerParity r ^^ b) ^^ parity rest) := by
        rw [stepBit, registerParity_shift, registerParity_xor, hb]
      _ = (registerParity r ^^ parity (b :: rest)) := by
        rw [Bool.xor_assoc]
        rfl

theorem extendBits_ne_zero_of_odd {bs : List Bool} (h : bs.count true % 2 = 1) :
    extendBits 0 bs ≠ 0 := by
  intro hz
  have hp := registerParity_extendBits 0 bs
  rw [hz, parity_eq_count, decide_eq_true h] at hp
  exact absurd hp (by decide)

/-! ## Two errors -/

/-- Within the bits of a frame, a bit does not come back to where it entered. -/
theorem shifts_one_ne_one {n : Nat} (h : 0 < n) (hn : n < 8 * maxFrame) : shifts n 1 ≠ 1 := by
  have orbit : (1 : UInt16) ∉ List.iterate shift (shift 1) (8 * maxFrame) := by decide +kernel
  have hiter (m : Nat) (r : UInt16) : shift^[m] r = shifts m r := by
    induction m generalizing r with
    | zero => rfl
    | succ m ih => exact ih (shift r)
  intro he
  apply orbit
  rw [List.mem_iterate]
  refine ⟨n - 1, by omega, ?_⟩
  rw [hiter]
  show 1 = shifts (n - 1 + 1) 1
  rw [Nat.sub_add_cancel h, he]

/-- The first bit that is set, and how many stand before it. -/
theorem eq_zeros_append_of_count {bs : List Bool} {n : Nat} (h : bs.count true = n + 1) :
    ∃ k rest, bs = List.replicate k false ++ true :: rest ∧ rest.count true = n := by
  induction bs with
  | nil => cases h
  | cons b bs ih =>
    cases b with
    | true =>
      rw [List.count_cons_self] at h
      exact ⟨0, bs, rfl, Nat.succ.inj h⟩
    | false =>
      rw [List.count_cons_of_ne (by decide)] at h
      obtain ⟨k, rest, rfl, hr⟩ := ih h
      exact ⟨k + 1, rest, rfl, hr⟩

theorem extendBits_ne_zero_of_two {bs : List Bool} (h : bs.count true = 2)
    (hn : bs.length < 8 * maxFrame) : extendBits 0 bs ≠ 0 := by
  obtain ⟨i, _, rfl, hone⟩ := eq_zeros_append_of_count h
  obtain ⟨j, rest, rfl, hnone⟩ := eq_zeros_append_of_count hone
  obtain ⟨k, rfl⟩ : ∃ k, rest = List.replicate k false := by
    refine ⟨_, List.eq_replicate_iff.2 ⟨rfl, fun b hb => ?_⟩⟩
    cases b with
    | false => rfl
    | true => exact absurd hb (List.count_eq_zero.1 hnone)
  -- The first bit is shifted until the second enters, and then both leave together.
  have hrun : extendBits 0 (List.replicate i false ++ true ::
      (List.replicate j false ++ true :: List.replicate k false)) =
      shifts (k + 1) (shifts (j + 1) 1 ^^^ 1) := by
    have hz : shifts i 0 = 0 := (shifts_eq_zero_iff i 0).2 rfl
    have hfirst : stepBit 0 true = shift 1 := congrArg shift UInt16.zero_xor
    calc extendBits 0 (List.replicate i false ++ true ::
          (List.replicate j false ++ true :: List.replicate k false))
        = extendBits (shift 1) (List.replicate j false ++ true :: List.replicate k false) := by
          rw [extendBits_append, extendBits_zeros, hz, extendBits_cons, hfirst]
      _ = extendBits (shift (shifts (j + 1) 1 ^^^ 1)) (List.replicate k false) := by
        rw [extendBits_append, extendBits_zeros, extendBits_cons]
        rfl
      _ = shifts (k + 1) (shifts (j + 1) 1 ^^^ 1) := extendBits_zeros _ _
  rw [hrun]
  intro he
  have heq := UInt16.xor_eq_zero_iff.1 ((shifts_eq_zero_iff _ _).1 he)
  refine shifts_one_ne_one (Nat.succ_pos j) ?_ heq
  simp only [List.length_append, List.length_cons, List.length_replicate] at hn
  omega

/-! ## Errors side by side -/

theorem extend_ne_zero_of_inTwoBytes {e : Bytes} (h : InTwoBytes e) (hne : ∃ b ∈ e, b ≠ 0) :
    extend 0 e ≠ 0 := by
  obtain ⟨i, x, y, j, rfl⟩ := h
  have hrun : extend 0 (List.replicate i 0 ++ [x, y] ++ List.replicate j 0) =
      shifts (8 * j) (shifts 16 (UInt16.ofNat (leValue [x, y]))) := by
    have hz : extend 0 (List.replicate i 0) = 0 := by rw [extend_zeros, shifts_eq_zero_iff]
    calc extend 0 (List.replicate i 0 ++ [x, y] ++ List.replicate j 0)
        = extend (extend 0 [x, y]) (List.replicate j 0) := by
          rw [extend_append, extend_append, hz]
      _ = shifts (8 * j) (shifts 16 (UInt16.ofNat (leValue [x, y]))) := by
        rw [extend_zeros, extend_pair, UInt16.zero_xor]
  rw [hrun]
  intro he
  have hv := (shifts_eq_zero_iff _ _).1 ((shifts_eq_zero_iff _ _).1 he)
  have hxy : [x, y] = word16 0 := (ofNat_leValue_eq_iff rfl 0).1 hv
  obtain ⟨rfl, hy⟩ := List.cons.inj hxy
  obtain ⟨rfl, -⟩ := List.cons.inj hy
  obtain ⟨b, hb, hb0⟩ := hne
  apply hb0
  simp only [List.mem_append, List.mem_cons, List.mem_replicate, List.not_mem_nil] at hb
  rcases hb with (⟨-, rfl⟩ | rfl | rfl | hb) | ⟨-, rfl⟩
  · rfl
  · rfl
  · rfl
  · exact hb.elim
  · rfl

/-- Errors of the three kinds do not go unnoticed. -/
theorem extend_ne_zero {e : Bytes} (hn : e.length < maxFrame) (hne : ∃ b ∈ e, b ≠ 0)
    (h : weight e % 2 = 1 ∨ weight e = 2 ∨ InTwoBytes e) : extend 0 e ≠ 0 := by
  have hl : (wireBits e).length < 8 * maxFrame := by
    rw [length_wireBits]
    omega
  rcases h with h | h | h
  · rw [extend_eq_extendBits]
    exact extendBits_ne_zero_of_odd h
  · rw [extend_eq_extendBits]
    exact extendBits_ne_zero_of_two h hl
  · exact extend_ne_zero_of_inTwoBytes h hne

end Checksum

end GimbalLink
