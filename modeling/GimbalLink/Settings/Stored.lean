import GimbalLink.Settings.Basic
import GimbalLink.Settings.Varint
import GimbalLink.Message.CommandLayout
/-
  The stored form of the settings.

  A magic number and a format version come first, so that what something else wrote
  is refused and not misread. The body holds the fields in the order of the
  structure: numbers of several bytes as short as they go, single bytes and floats
  as they are, a choice by the number of its alternative, an option behind a byte
  that says whether it is there. Bytes behind the body are ignored.

  What is proved: reading looks at the body only under the right magic number and
  version (`read_of_mismatch`).
-/
namespace GimbalLink

/-- Why settings could not be stored or read. -/
inductive SettingsError where
  /-- The destination is too short. -/
  | noRoom
  /-- The bytes end early or hold no settings. -/
  | damaged
  /-- The bytes are of another kind or format. -/
  | versionMismatch
  deriving DecidableEq, Repr

/-- "GMBL", read as a number. -/
def storedMagic : UInt32 := 0x474d424c

def storedVersion : UInt8 := 1

/-- Room that is enough for any settings. -/
def storedRoom : Nat := 96

/-! ## Parts -/

namespace Mode

/-- The number of the alternative, and an unsupported mode's own number behind it. -/
def store : Mode → Bytes
  | retract => Varint.write32 0
  | neutral => Varint.write32 1
  | external => Varint.write32 2
  | manual => Varint.write32 3
  | position => Varint.write32 4
  | unsupported n => Varint.write32 5 ++ [n]

def load : Reader Mode := do
  let alternative ← Varint.read32
  if alternative = 0 then return retract
  else if alternative = 1 then return neutral
  else if alternative = 2 then return external
  else if alternative = 3 then return manual
  else if alternative = 4 then return position
  else if alternative = 5 then return unsupported (← Reader.byte)
  else failure

end Mode

namespace Angles

def store (a : Angles) : Bytes := a.roll.toBytes ++ a.pitch.toBytes ++ a.yaw.toBytes

def load : Reader Angles := do
  return ⟨← Reader.binary32, ← Reader.binary32, ← Reader.binary32⟩

end Angles

namespace Assignments

def store (a : Assignments) : Bytes := [a.roll, a.tilt, a.pan]

def load : Reader Assignments := do return ⟨← Reader.byte, ← Reader.byte, ← Reader.byte⟩

end Assignments

namespace Location

def store (l : Location) : Bytes :=
  Varint.writeInt32 l.latitude ++ Varint.writeInt32 l.longitude ++ Varint.writeInt32 l.altitude

def load : Reader Location := do
  return ⟨← Varint.readInt32, ← Varint.readInt32, ← Varint.readInt32⟩

end Location

/-- An option: zero, or one and the value. -/
def storeOption {α : Type} (store : α → Bytes) : Option α → Bytes
  | none => [0]
  | some a => 1 :: store a

def loadOption {α : Type} (load : Reader α) : Reader (Option α) := do
  let tag ← Reader.byte
  if tag = 0 then return none
  else if tag = 1 then some <$> load
  else failure

/-! ## Settings -/

namespace Settings

/-- The body of the stored form. -/
def store (s : Settings) : Bytes :=
  s.defaultMode.store ++ s.retractAngles.store ++ s.neutralAngles.store ++
    s.assignments.store ++ Varint.write16 (UInt16.ofBitVec s.features.bits) ++
    Varint.write32 s.searchLimit ++ [s.busNode] ++ storeOption Location.store s.interest

def load : Reader Settings := do
  let defaultMode ← Mode.load
  let retractAngles ← Angles.load
  let neutralAngles ← Angles.load
  let assignments ← Assignments.load
  let features ← Varint.read16
  let searchLimit ← Varint.read32
  let busNode ← Reader.byte
  let interest ← loadOption Location.load
  return { defaultMode, retractAngles, neutralAngles, assignments,
           features := ⟨features.toBitVec⟩, searchLimit, busNode, interest }

/-- The whole stored form. -/
def toBytes (s : Settings) : Bytes := Varint.write32 storedMagic ++ [storedVersion] ++ s.store

/-- The stored form, if so many bytes hold it. -/
def writeWithin (s : Settings) (room : Nat) : Except SettingsError Bytes :=
  if s.toBytes.length ≤ room then .ok s.toBytes else .error .noRoom

/-- The magic number and the version at the front. -/
def heading : Reader (UInt32 × UInt8) := do return (← Varint.read32, ← Reader.byte)

/-- Reads settings, and tells which bytes stand behind them. -/
def readFrom (bs : Bytes) : Except SettingsError (Settings × Bytes) :=
  match heading bs with
  | none => .error .damaged
  | some ((magic, version), body) =>
    if magic = storedMagic ∧ version = storedVersion then
      match load body with
      | none => .error .damaged
      | some r => .ok r
    else .error .versionMismatch

def ofBytes (bs : Bytes) : Except SettingsError Settings := Prod.fst <$> readFrom bs

theorem read_of_mismatch {bs body : Bytes} {magic : UInt32} {version : UInt8}
    (h : heading bs = some ((magic, version), body))
    (hne : ¬(magic = storedMagic ∧ version = storedVersion)) :
    ofBytes bs = .error .versionMismatch := by
  simp only [ofBytes, readFrom, h, if_neg hne]
  rfl

end Settings

end GimbalLink
