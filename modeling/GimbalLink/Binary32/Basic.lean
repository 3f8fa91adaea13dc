/-
  Single-precision floating-point words.

  A value is its 32-bit interchange word, so a NaN keeps its sign and payload
  while it is only carried. Every finite value is a whole number of units of
  2^-149 (`magnitude`, `units`), and that is how arithmetic sees it.

  What is proved: negation flips the sign and nothing else, so it is its own
  inverse (`neg_neg`) and keeps the magnitude (`magnitude_neg`).
-/
namespace GimbalLink

/-- A single-precision value, by its interchange word. -/
structure Binary32 where
  bits : UInt32
  deriving DecidableEq, Repr

namespace Binary32

def zero : Binary32 := ⟨0⟩

def negativeZero : Binary32 := ⟨0x80000000⟩

/-- The quiet NaN that arithmetic answers with. -/
def nan : Binary32 := ⟨0x7fc00000⟩

instance : Inhabited Binary32 := ⟨zero⟩

/-- The sign bit. -/
def negative (x : Binary32) : Bool := 0x80000000 ≤ x.bits.toNat

/-- The word without its sign bit. -/
def pattern (x : Binary32) : Nat := x.bits.toNat % 0x80000000

/-- The pattern of infinity; larger ones are NaNs. -/
def infinitePattern : Nat := 0x7f800000

def isNaN (x : Binary32) : Bool := infinitePattern < x.pattern

def isInfinite (x : Binary32) : Bool := x.pattern == infinitePattern

/-- A word from a sign and a pattern. -/
def ofPattern (negative : Bool) (pattern : Nat) : Binary32 :=
  ⟨UInt32.ofNat (pattern + if negative then 0x80000000 else 0)⟩

def neg (x : Binary32) : Binary32 := ofPattern (!x.negative) x.pattern

instance : Neg Binary32 := ⟨neg⟩

/-- The size of a finite value in units of 2^-149: the fraction field alone below
the normal range, else with its leading one, shifted by the exponent field. -/
def magnitude (x : Binary32) : Nat :=
  let exponent := x.pattern / 0x800000
  let fraction := x.pattern % 0x800000
  if exponent = 0 then fraction else (0x800000 + fraction) <<< (exponent - 1)

/-- A finite value in units of 2^-149. -/
def units (x : Binary32) : Int :=
  if x.negative then -(x.magnitude : Int) else x.magnitude

/-! ## Sign and pattern -/

theorem pattern_lt (x : Binary32) : x.pattern < 0x80000000 := Nat.mod_lt _ (by decide)

theorem toNat_bits (x : Binary32) :
    x.bits.toNat = x.pattern + if x.negative then 0x80000000 else 0 := by
  have h := x.bits.toNat_lt
  simp only [pattern, negative, decide_eq_true_eq]
  split <;> omega

theorem pattern_ofPattern {s : Bool} {p : Nat} (h : p < 0x80000000) :
    (ofPattern s p).pattern = p := by
  cases s <;> simp only [pattern, ofPattern, UInt32.toNat_ofNat', if_true, Bool.false_eq_true,
    if_false] <;> omega

theorem negative_ofPattern {s : Bool} {p : Nat} (h : p < 0x80000000) :
    (ofPattern s p).negative = s := by
  cases s
  · simp only [negative, ofPattern, UInt32.toNat_ofNat', Bool.false_eq_true, if_false]
    simp; omega
  · simp only [negative, ofPattern, UInt32.toNat_ofNat', if_true, decide_eq_true_eq]
    omega

@[simp] theorem ofPattern_self (x : Binary32) : ofPattern x.negative x.pattern = x := by
  have h := toNat_bits x
  cases x with
  | mk b =>
    simp only [ofPattern, ← h]
    simp

@[simp] theorem negative_neg (x : Binary32) : x.neg.negative = !x.negative :=
  negative_ofPattern x.pattern_lt

@[simp] theorem pattern_neg (x : Binary32) : x.neg.pattern = x.pattern :=
  pattern_ofPattern x.pattern_lt

@[simp] theorem magnitude_neg (x : Binary32) : x.neg.magnitude = x.magnitude := by
  simp [magnitude]

@[simp] theorem neg_neg (x : Binary32) : x.neg.neg = x := by
  have h : x.neg.neg = ofPattern (!x.neg.negative) x.neg.pattern := rfl
  rw [h, negative_neg, pattern_neg, Bool.not_not, ofPattern_self]

end Binary32

end GimbalLink
