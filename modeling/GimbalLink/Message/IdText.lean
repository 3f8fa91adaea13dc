import GimbalLink.Bytes
/-
  Identification texts.

  The gimbal reports its firmware version, name and board as fields of sixteen
  bytes, filled up with zeros. A text holds at most sixteen printable characters;
  a field that is damaged still reads as some text.

  What is proved: a text survives being written as a field and read back
  (`ofField_toField`).
-/
namespace GimbalLink

/-- Width of a field on the wire. -/
def idFieldSize : Nat := 16

/-- A visible character or a blank. -/
def isPrintable (b : UInt8) : Bool := 0x20 ≤ b && b ≤ 0x7e

/-- The byte itself, or a question mark in place of one that cannot be shown. -/
def legible (b : UInt8) : UInt8 := if isPrintable b then b else 0x3f

theorem isPrintable_legible (b : UInt8) : isPrintable (legible b) = true := by
  unfold legible
  split
  · assumption
  · rfl

structure IdText where
  bytes : Bytes
  length_le : bytes.length ≤ idFieldSize
  printable : ∀ b ∈ bytes, isPrintable b = true
  deriving DecidableEq

namespace IdText

def empty : IdText := ⟨[], by decide, by simp⟩

instance : Inhabited IdText := ⟨empty⟩

/-- The part of a field in front of its first zero. -/
def content (field : Bytes) : Bytes := (field.take idFieldSize).takeWhile (· ≠ 0)

theorem length_content_le (field : Bytes) : (content field).length ≤ idFieldSize :=
  Nat.le_trans (List.takeWhile_prefix _).length_le (List.length_take_le _ _)

/-- Reads a field: up to sixteen bytes, up to a zero, each made legible. -/
def ofField (field : Bytes) : IdText where
  bytes := (content field).map legible
  length_le := by rw [List.length_map]; exact length_content_le field
  printable := by
    intro b hb
    obtain ⟨a, _, rfl⟩ := List.mem_map.1 hb
    exact isPrintable_legible a

/-- Cuts a string to a text. -/
def ofString (s : String) : IdText := ofField s.toUTF8.toList

/-- Writes a field, filled up with zeros. -/
def toField (t : IdText) : Bytes := t.bytes ++ List.replicate (idFieldSize - t.bytes.length) 0

def toString (t : IdText) : String := String.ofList (t.bytes.map fun b => Char.ofNat b.toNat)

@[simp] theorem length_toField (t : IdText) : t.toField.length = idFieldSize := by
  have h := t.length_le
  simp only [toField, List.length_append, List.length_replicate]
  omega

theorem takeWhile_zeros {bs : Bytes} (h : ∀ b ∈ bs, isPrintable b = true) (n : Nat) :
    (bs ++ List.replicate n 0).takeWhile (· ≠ (0 : UInt8)) = bs := by
  induction bs with
  | nil => cases n <;> simp [List.replicate_succ]
  | cons b rest ih =>
    have hb : b ≠ 0 := by
      rintro rfl
      exact absurd (h 0 (List.mem_cons_self ..)) (by decide)
    have ht := ih (fun c hc => h c (List.mem_cons_of_mem _ hc))
    simp only [List.cons_append, List.takeWhile_cons, ne_eq, hb, not_false_eq_true, decide_true,
      if_true]
    rw [ht]

theorem map_legible {bs : Bytes} (h : ∀ b ∈ bs, isPrintable b = true) : bs.map legible = bs := by
  induction bs with
  | nil => rfl
  | cons b rest ih =>
    have hb : legible b = b := if_pos (h b (List.mem_cons_self ..))
    rw [List.map_cons, hb, ih (fun c hc => h c (List.mem_cons_of_mem _ hc))]

theorem ofField_toField (t : IdText) : ofField t.toField = t := by
  have hc : content t.toField = t.bytes := by
    rw [content, List.take_of_length_le (by simp), toField, takeWhile_zeros t.printable]
  have hb : (ofField t.toField).bytes = t.bytes := by
    show (content t.toField).map legible = t.bytes
    rw [hc, map_legible t.printable]
  generalize ofField t.toField = u at hb
  cases u
  cases t
  cases hb
  rfl

end IdText

end GimbalLink
