import GimbalLink.Settings.Stored
import GimbalLink.Proofs.Settings.Numbers
/-
  Storing settings and reading them back.

  Each part of the stored form is read back by its own reader from its own bytes, whatever
  stands behind them (`Reader.Reads`); the parts put together are then the settings. The
  bytes of each part are counted at their most.

  What is proved:
    1. `reads_load`, for each part and for the settings: what was stored is read back.
    2. `Settings.length_toBytes_le`: no stored form has more than sixty bytes.
    3. `Settings.stored_and_read_back`: storing goes through just if there is room for the
       bytes, as there always is in `storedRoom`, and they are read back as the settings.
-/
namespace GimbalLink

open Reader (Reads)

/-! ## Parts -/

namespace Mode

theorem reads_load (m : Mode) : Reads load m.store m := by
  have alternative (w : UInt32) {cs : Bytes} {k : UInt32 → Reader Mode} (h : Reads (k w) cs m) :=
    (Varint.reads_read32 w).bind h
  cases m with
  | retract => exact alternative 0 (.pure' _)
  | neutral => exact alternative 1 (.pure' _)
  | external => exact alternative 2 (.pure' _)
  | manual => exact alternative 3 (.pure' _)
  | position => exact alternative 4 (.pure' _)
  | unsupported n => exact alternative 5 ((Reader.reads_byte n).map _)

theorem length_store_le (m : Mode) : m.store.length ≤ 2 := by
  cases m with
  | unsupported n => exact Nat.le_refl 2
  | _ => decide

end Mode

namespace Angles

theorem reads_load (a : Angles) : Reads load a.store a := by
  have h : Reads load _ a := (Reader.reads_binary32 a.roll).bind
    ((Reader.reads_binary32 a.pitch).bind ((Reader.reads_binary32 a.yaw).bind (.pure' _)))
  simpa only [store, List.append_assoc, List.append_nil] using h

theorem length_store (a : Angles) : a.store.length = 12 := by
  simp only [store, List.length_append, Binary32.length_toBytes]

end Angles

theorem Assignments.reads_load (a : Assignments) : Reads load a.store a :=
  (Reader.reads_byte a.roll).bind ((Reader.reads_byte a.tilt).bind
    ((Reader.reads_byte a.pan).map _))

namespace Location

theorem reads_load (l : Location) : Reads load l.store l := by
  have h : Reads load _ l := (Varint.reads_readInt32 l.latitude).bind
    ((Varint.reads_readInt32 l.longitude).bind
      ((Varint.reads_readInt32 l.altitude).bind (.pure' _)))
  simpa only [store, List.append_assoc, List.append_nil] using h

theorem length_store_le (l : Location) : l.store.length ≤ 15 := by
  have hlatitude := Varint.length_write 4 (Varint.zigzag l.latitude.toInt)
  have hlongitude := Varint.length_write 4 (Varint.zigzag l.longitude.toInt)
  have haltitude := Varint.length_write 4 (Varint.zigzag l.altitude.toInt)
  simp only [store, Varint.writeInt32, List.length_append]
  omega

end Location

section Option

variable {α : Type} {store : α → Bytes} {load : Reader α}

theorem reads_loadOption (h : ∀ a, Reads load (store a) a) (o : Option α) :
    Reads (loadOption load) (storeOption store o) o := by
  cases o with
  | none => exact (Reader.reads_byte 0).bind (.pure' _)
  | some a => exact (Reader.reads_byte 1).bind ((h a).map some)

theorem length_storeOption_le {most : Nat} (h : ∀ a, (store a).length ≤ most) (o : Option α) :
    (storeOption store o).length ≤ most + 1 := by
  cases o with
  | none => exact Nat.succ_le_succ (Nat.zero_le _)
  | some a => exact Nat.succ_le_succ (h a)

end Option

/-! ## Settings -/

namespace Settings

theorem reads_load (s : Settings) : Reads load s.store s := by
  have h : Reads load _ s := s.defaultMode.reads_load.bind (s.retractAngles.reads_load.bind
    (s.neutralAngles.reads_load.bind (s.assignments.reads_load.bind
      ((Varint.reads_read16 (UInt16.ofBitVec s.features.bits)).bind
        ((Varint.reads_read32 s.searchLimit).bind ((Reader.reads_byte s.busNode).bind
          ((reads_loadOption Location.reads_load s.interest).bind (.pure' _))))))))
  simpa only [store, List.append_assoc, List.append_nil] using h

theorem reads_heading :
    Reads heading (Varint.write32 storedMagic ++ [storedVersion]) (storedMagic, storedVersion) :=
  (Varint.reads_read32 storedMagic).bind ((Reader.reads_byte storedVersion).map _)

theorem readFrom_toBytes_append (s : Settings) (rest : Bytes) :
    readFrom (s.toBytes ++ rest) = .ok (s, rest) := by
  rw [toBytes, List.append_assoc, readFrom, reads_heading]
  simp only [and_self, if_true, s.reads_load rest]

theorem length_toBytes_le (s : Settings) : s.toBytes.length ≤ 60 := by
  have hmode := s.defaultMode.length_store_le
  have hfeatures := Varint.length_write 2 (UInt16.ofBitVec s.features.bits).toNat
  have hlimit := Varint.length_write 4 s.searchLimit.toNat
  have hinterest := length_storeOption_le Location.length_store_le s.interest
  have hmagic : (Varint.write 4 storedMagic.toNat).length = 5 := by decide
  simp only [toBytes, store, Varint.write16, Varint.write32, List.length_append,
    Angles.length_store, Assignments.store, List.length_cons, List.length_nil]
  omega

/-- Stored settings are read back. Storing goes through just if there is room for the bytes of
the stored form, and there is in `storedRoom`; the bytes are never more than sixty. Whatever
stands behind them, they are read as the settings that were stored, and what stands behind is
left over. -/
theorem stored_and_read_back (s : Settings) (room : Nat) (rest : Bytes) :
    s.toBytes.length ≤ 60 ∧
      (∀ bs, s.writeWithin room = .ok bs ↔ s.toBytes.length ≤ room ∧ bs = s.toBytes) ∧
      (s.writeWithin room = .error .noRoom ↔ room < s.toBytes.length) ∧
      s.writeWithin storedRoom = .ok s.toBytes ∧
      readFrom (s.toBytes ++ rest) = .ok (s, rest) ∧ ofBytes (s.toBytes ++ rest) = .ok s := by
  have hread := s.readFrom_toBytes_append rest
  have hroom : s.toBytes.length ≤ storedRoom := Nat.le_trans s.length_toBytes_le (by decide)
  refine ⟨s.length_toBytes_le, fun bs => ?_, ?_, ?_, hread, ?_⟩
  · unfold writeWithin
    split
    · next h => simp only [h, true_and, Except.ok.injEq, eq_comm]
    · next h => simp only [h, false_and, reduceCtorEq]
  · unfold writeWithin
    split
    · next h => simp only [reduceCtorEq, Nat.not_lt.2 h]
    · next h => simp only [Nat.lt_of_not_le h]
  · rw [writeWithin, if_pos hroom]
  · rw [ofBytes, hread]
    rfl

/-- Settings with every part at its longest. -/
def longest : Settings where
  defaultMode := .unsupported 255
  retractAngles := .zero
  neutralAngles := .zero
  assignments := ⟨0, 0, 0⟩
  features := ⟨0xffff#16⟩
  searchLimit := 0xffffffff
  busNode := 71
  interest := some ⟨-2147483648, 2147483647, -2147483648⟩

example : longest.toBytes.length = 60 := by decide

end Settings

end GimbalLink
