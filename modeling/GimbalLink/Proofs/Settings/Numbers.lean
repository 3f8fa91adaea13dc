import GimbalLink.Settings.Varint
/-
  The forms of a number.

  A number has one shortest form and, as far as the width goes, longer ones whose last bytes
  hold no bit of it. `IsForm` says which bytes stand for a number of a given width, and
  `value` for which.

  What is proved:
    1. `read_eq_some_iff`: a number is read just where the bytes begin with a form, and it is
       the form's value.
    2. `length_write_le`: the form that is written is the shortest.
    3. `reads_read16`, `reads_read32`, `reads_readInt32`: what was written is read back,
       whatever the number.
    4. `zigzag_toInt_ofInt`: every form is one of a signed number too, whose alternating
       number is the form's value.
-/
namespace GimbalLink

namespace Varint

/-- The number that bytes hold, seven bits to a byte, lowest first. -/
def value : Bytes → Nat
  | [] => 0
  | b :: rest => b.toNat % 128 + 128 * value rest

/-- Which bytes stand for a number: at most `n + 1`, each but the last with its high bit set,
and the last of `n + 1` at most `last`. -/
inductive IsForm (last : Nat) : Nat → Bytes → Prop
  | full {b : UInt8} (h : b.toNat ≤ last) : IsForm last 0 [b]
  | short {n : Nat} {b : UInt8} (h : b.toNat < 128) : IsForm last (n + 1) [b]
  | more {n : Nat} {b : UInt8} {form : Bytes} (hb : 128 ≤ b.toNat) (h : IsForm last n form) :
      IsForm last (n + 1) (b :: form)

variable {last n : Nat} {form : Bytes}

theorem value_single {b : UInt8} (h : b.toNat < 128) : value [b] = b.toNat := by
  rw [value, value, Nat.mod_eq_of_lt h, Nat.mul_zero, Nat.add_zero]

theorem value_more {b : UInt8} (hb : 128 ≤ b.toNat) (form : Bytes) :
    value (b :: form) = b.toNat - 128 + 128 * value form := by
  have hlt := b.toNat_lt
  rw [value]
  omega

theorem value_div (b : UInt8) (form : Bytes) : value (b :: form) / 128 = value form := by
  rw [value]
  omega

/-! ## Reading -/

theorem reads_form (hl : last < 128) (h : IsForm last n form) :
    Reader.Reads (read last n) form (value form) := by
  intro rest
  induction h with
  | full h =>
    rw [List.singleton_append, read, if_pos h, value_single (by omega)]
  | short h =>
    rw [List.singleton_append, read, if_pos h, value_single h]
  | more hb _ ih =>
    rw [List.cons_append, read, if_neg (Nat.not_lt.2 hb), ih, value_more hb]
    rfl

theorem form_of_read (hl : last < 128) {bs rest : Bytes} {v : Nat}
    (h : read last n bs = some (v, rest)) :
    ∃ form, bs = form ++ rest ∧ IsForm last n form ∧ v = value form := by
  induction n generalizing bs v with
  | zero =>
    cases bs with
    | nil => cases h
    | cons b bs =>
      rw [read] at h
      split at h
      · next hb =>
        cases h
        exact ⟨[b], rfl, .full hb, (value_single (by omega)).symm⟩
      · cases h
  | succ n ih =>
    cases bs with
    | nil => cases h
    | cons b bs =>
      rw [read] at h
      split at h
      · next hb =>
        cases h
        exact ⟨[b], rfl, .short hb, (value_single hb).symm⟩
      · next hb =>
        obtain ⟨⟨w, ds⟩, hread, heq⟩ := Option.map_eq_some_iff.1 h
        cases heq
        obtain ⟨form, rfl, hform, rfl⟩ := ih hread
        have hb := Nat.not_lt.1 hb
        exact ⟨b :: form, rfl, .more hb hform, (value_more hb form).symm⟩

/-- A number is read just where the bytes begin with a form. -/
theorem read_eq_some_iff (hl : last < 128) {bs rest : Bytes} {v : Nat} :
    read last n bs = some (v, rest) ↔
      ∃ form, bs = form ++ rest ∧ IsForm last n form ∧ v = value form := by
  constructor
  · exact form_of_read hl
  · rintro ⟨form, rfl, hform, rfl⟩
    exact reads_form hl hform rest

theorem value_lt_bound (hl : last < 128) (h : IsForm last n form) :
    value form < bound last n := by
  induction h with
  | full h =>
    rw [value_single (by omega), bound]
    omega
  | @short n b h =>
    have hpos : 0 < bound last n := by
      induction n with
      | zero => exact Nat.succ_pos _
      | succ n ih => exact Nat.mul_pos (by decide) ih
    rw [value_single h, bound]
    omega
  | @more n b form hb _ ih =>
    have hlt := b.toNat_lt
    rw [value_more hb, bound]
    omega

/-! ## Lengths -/

theorem length_write (n v : Nat) : (write n v).length ≤ n + 1 := by
  induction n generalizing v with
  | zero => exact Nat.le_refl 1
  | succ n ih =>
    rw [write]
    split
    · exact Nat.succ_le_succ (Nat.zero_le _)
    · exact Nat.succ_le_succ (ih _)

/-- What is written is the shortest form of the number. -/
theorem length_write_le (h : IsForm last n form) :
    (write n (value form)).length ≤ form.length := by
  induction h with
  | full h => exact Nat.le_refl 1
  | short h =>
    rw [write, value_single h, if_pos h]
    exact Nat.le_refl 1
  | more hb _ ih =>
    rw [write, value_div]
    split
    · exact Nat.succ_le_succ (Nat.zero_le _)
    · exact Nat.succ_le_succ ih

/-! ## Signed numbers -/

theorem zigzag_unzigzag (v : Nat) : zigzag (unzigzag v) = v := by
  unfold zigzag unzigzag
  split <;> split <;> omega

theorem zigzag_lt (i : Int32) : zigzag i.toInt < UInt32.size := by
  have hlo := i.le_toInt
  have hhi := i.toInt_lt
  unfold zigzag UInt32.size
  split <;> omega

/-- The numbers of a word's width alternate through just the signed numbers of that width. -/
theorem zigzag_toInt_ofInt {v : Nat} (h : v < UInt32.size) :
    zigzag (Int32.ofInt (unzigzag v)).toInt = v := by
  unfold UInt32.size at h
  have hlo : -2 ^ 31 ≤ unzigzag v := by
    unfold unzigzag
    split <;> omega
  have hhi : unzigzag v < 2 ^ 31 := by
    unfold unzigzag
    split <;> omega
  rw [Int32.toInt_ofInt_of_le hlo hhi, zigzag_unzigzag]

/-! ## What was written is read back -/

theorem reads_write (last n : Nat) (hl : last < 128) {v : Nat} (h : v < bound last n) :
    Reader.Reads (read last n) (write n v) v :=
  fun rest => read_write last n v rest hl h

theorem reads_read16 (w : UInt16) : Reader.Reads read16 (write16 w) w := by
  have h := (reads_write 3 2 (by decide) w.toNat_lt).map UInt16.ofNat
  rwa [UInt16.ofNat_toNat] at h

theorem reads_read32 (w : UInt32) : Reader.Reads read32 (write32 w) w := by
  have h := (reads_write 15 4 (by decide) w.toNat_lt).map UInt32.ofNat
  rwa [UInt32.ofNat_toNat] at h

theorem reads_readInt32 (i : Int32) : Reader.Reads readInt32 (writeInt32 i) i := by
  have h := (reads_write 15 4 (by decide) (zigzag_lt i)).map fun v => Int32.ofInt (unzigzag v)
  rwa [unzigzag_zigzag, Int32.ofInt_toInt] at h

end Varint

end GimbalLink
