/-
  Bytes and little-endian words.

  A number is written as its digits to base 256, lowest first (`leBytes`), and
  read back by `leValue`. Words of any width on the wire are these two functions
  at a fixed number of bytes.

  What is proved:
    1. `leValue_leBytes`: reading back what `n` bytes hold gives the number
       modulo how many numbers `8 * n` bits tell apart.
    2. `leBytes_leValue`: writing the value of some bytes in as many bytes gives
       those bytes.
    3. `reads_word16`, `reads_word32`: a word is read back from its bytes, whatever
       stands behind them.

  A `Reader` takes what it needs from the front of the bytes and hands on the
  rest; it fails when the bytes run out. That it takes just the bytes of a value is
  `Reads`; readers put together take the bytes put together (`Reads.bind`).
-/
namespace GimbalLink

abbrev Bytes := List UInt8

/-- The `n` lowest base-256 digits of a number, lowest first. -/
def leBytes : Nat → Nat → Bytes
  | 0, _ => []
  | n + 1, v => UInt8.ofNat v :: leBytes n (v / 256)

/-- The number whose base-256 digits are the bytes, lowest first. -/
def leValue : Bytes → Nat
  | [] => 0
  | b :: rest => b.toNat + 256 * leValue rest

@[simp] theorem length_leBytes (n v : Nat) : (leBytes n v).length = n := by
  induction n generalizing v with
  | zero => rfl
  | succ n ih => simp [leBytes, ih]

/-- One byte more tells 256 times as many numbers apart. -/
theorem shiftLeft_eight_mul_succ (n : Nat) : 1 <<< (8 * (n + 1)) = 256 * (1 <<< (8 * n)) := by
  rw [Nat.one_shiftLeft, Nat.one_shiftLeft, Nat.mul_succ, Nat.pow_add']

theorem leValue_lt (bs : Bytes) : leValue bs < 1 <<< (8 * bs.length) := by
  induction bs with
  | nil => decide
  | cons b rest ih =>
    have hb := b.toNat_lt
    rw [leValue, List.length_cons, shiftLeft_eight_mul_succ]
    omega

theorem leValue_leBytes (n v : Nat) : leValue (leBytes n v) = v % (1 <<< (8 * n)) := by
  induction n generalizing v with
  | zero => exact (Nat.mod_one v).symm
  | succ n ih =>
    have hd : (UInt8.ofNat v).toNat = v % 256 := by simp
    rw [leBytes, leValue, ih, hd, shiftLeft_eight_mul_succ, Nat.mod_mul]

theorem leBytes_leValue (bs : Bytes) : leBytes bs.length (leValue bs) = bs := by
  induction bs with
  | nil => rfl
  | cons b rest ih =>
    have hb := b.toNat_lt
    have hq : (b.toNat + 256 * leValue rest) / 256 = leValue rest := by omega
    have hr : UInt8.ofNat (b.toNat + 256 * leValue rest) = b := by
      apply UInt8.toNat_inj.1
      simp only [UInt8.toNat_ofNat']
      omega
    simp only [List.length_cons, leBytes, leValue, hq, hr, ih]

/-- A missing byte counts as zero. -/
theorem leValue_eq_headD_tail (bs : Bytes) :
    leValue bs = (bs.headD 0).toNat + 256 * leValue bs.tail := by
  cases bs <;> rfl

/-! ## Words on the wire -/

def word16 (w : UInt16) : Bytes := leBytes 2 w.toNat

def word32 (w : UInt32) : Bytes := leBytes 4 w.toNat

@[simp] theorem length_word16 (w : UInt16) : (word16 w).length = 2 := length_leBytes 2 _

@[simp] theorem length_word32 (w : UInt32) : (word32 w).length = 4 := length_leBytes 4 _

theorem leValue_word16 (w : UInt16) : leValue (word16 w) = w.toNat := by
  have h := w.toNat_lt
  rw [word16, leValue_leBytes]
  exact Nat.mod_eq_of_lt h

theorem word16_leValue {bs : Bytes} (h : bs.length = 2) :
    word16 (UInt16.ofNat (leValue bs)) = bs := by
  have hv := leValue_lt bs
  rw [h] at hv
  have ht : (UInt16.ofNat (leValue bs)).toNat = leValue bs := by
    rw [UInt16.toNat_ofNat']
    exact Nat.mod_eq_of_lt hv
  rw [word16, ht, ← h, leBytes_leValue]

/-- The low byte of a word, and then the high one. -/
theorem word16_eq (w : UInt16) : word16 w = [w.toUInt8, (w >>> 8).toUInt8] := by
  have hlow : UInt8.ofNat w.toNat = w.toUInt8 := rfl
  have hhigh : UInt8.ofNat (w.toNat / 256) = (w >>> 8).toUInt8 := by
    apply UInt8.toNat_inj.1
    rw [UInt16.toNat_toUInt8, UInt16.toNat_shiftRight, UInt8.toNat_ofNat']
    show w.toNat / 256 % 256 = w.toNat >>> 8 % 256
    rw [Nat.shiftRight_eq_div_pow]
  rw [word16, leBytes, leBytes, leBytes, hlow, hhigh]

/-- A word and two bytes are the same number just if they are the same bytes. -/
theorem ofNat_leValue_eq_iff {bs : Bytes} (h : bs.length = 2) (w : UInt16) :
    UInt16.ofNat (leValue bs) = w ↔ bs = word16 w := by
  constructor
  · intro e
    rw [← e, word16_leValue h]
  · rintro rfl
    rw [leValue_word16, UInt16.ofNat_toNat]

/-! ## Reading from the front -/

abbrev Reader := StateT Bytes Option

namespace Reader

/-- The next `n` bytes. -/
def take (n : Nat) : Reader Bytes := fun bs =>
  if n ≤ bs.length then some (bs.take n, bs.drop n) else none

def byte : Reader UInt8
  | [] => none
  | b :: rest => some (b, rest)

def word16 : Reader UInt16 := do return UInt16.ofNat (leValue (← take 2))

def word32 : Reader UInt32 := do return UInt32.ofNat (leValue (← take 4))

/-- A reader's value on the whole input, provided it leaves nothing over. -/
def exactly {α : Type} (r : Reader α) (bs : Bytes) : Option α :=
  match r bs with
  | some (a, []) => some a
  | _ => none

/-- From an input that begins with the bytes, the reader takes just them, and reads the
value. -/
def Reads {α : Type} (r : Reader α) (bs : Bytes) (a : α) : Prop :=
  ∀ rest, r (bs ++ rest) = some (a, rest)

namespace Reads

variable {α β : Type} {r : Reader α} {bs cs : Bytes} {a : α}

theorem pure' (a : α) : Reads (pure a) [] a := fun _ => rfl

theorem bind {f : α → Reader β} {b : β} (h : Reads r bs a) (k : Reads (f a) cs b) :
    Reads (r >>= f) (bs ++ cs) b := by
  intro rest
  show (r (bs ++ cs ++ rest)).bind (fun x => f x.1 x.2) = some (b, rest)
  rw [List.append_assoc, h]
  exact k rest

theorem map (f : α → β) (h : Reads r bs a) : Reads (do return f (← r)) bs (f a) := by
  have k := h.bind (f := fun x => pure (f x)) (pure' (f a))
  rw [List.append_nil] at k
  exact k

theorem exactly (h : Reads r bs a) : r.exactly bs = some a := by
  have e := h []
  rw [List.append_nil] at e
  simp only [Reader.exactly, e]

end Reads

theorem reads_take {n : Nat} {bs : Bytes} (h : bs.length = n) : Reads (take n) bs bs := by
  subst h
  intro rest
  have hl : bs.length ≤ (bs ++ rest).length := by simp
  rw [take, if_pos hl, List.take_left, List.drop_left]

theorem reads_byte (b : UInt8) : Reads byte [b] b := fun _ => rfl

theorem reads_word16 (w : UInt16) : Reads word16 (GimbalLink.word16 w) w := by
  have hw : UInt16.ofNat (leValue (leBytes 2 w.toNat)) = w :=
    (ofNat_leValue_eq_iff (length_leBytes 2 _) w).2 rfl
  have h := (reads_take (length_leBytes 2 w.toNat)).map fun bs => UInt16.ofNat (leValue bs)
  rw [hw] at h
  exact h

theorem reads_word32 (w : UInt32) : Reads word32 (GimbalLink.word32 w) w := by
  have hw : UInt32.ofNat (leValue (leBytes 4 w.toNat)) = w := by
    rw [leValue_leBytes]
    apply UInt32.toNat_inj.1
    have h := w.toNat_lt
    have hspan : 1 <<< (8 * 4) = 4294967296 := by decide
    rw [UInt32.toNat_ofNat', hspan]
    omega
  have h := (reads_take (length_leBytes 4 w.toNat)).map fun bs => UInt32.ofNat (leValue bs)
  rw [hw] at h
  exact h

end Reader

end GimbalLink
