import GimbalLink.Bytes
/-
  A buffered serial port.

  Two queues of bytes, one for each direction, and neither direction ever waits:
  what does not fit is not taken. The transmit space may be limited below the
  capacity of the queue.

  What is proved: a write takes a front part of the bytes, and appends just that to
  what waits (`tx_write`).
-/
namespace GimbalLink

structure Port where
  /-- Written and not yet taken. -/
  tx : Bytes
  /-- Received and not yet read. -/
  rx : Bytes
  /-- How far the transmit queue may fill. -/
  txLimit : Nat
  deriving DecidableEq

namespace Port

/-- Room in each queue. -/
def capacity : Nat := 512

def new : Port := ⟨[], [], capacity⟩

def setLimit (p : Port) (limit : Nat) : Port := { p with txLimit := min limit capacity }

/-- Free transmit space, as it is told to the writer. -/
def txSpace (p : Port) : Nat := p.txLimit - p.tx.length

/-- Queues as many bytes as there is space for, and tells how many. -/
def write (p : Port) (bs : Bytes) : Port × Nat :=
  let accepted := (bs.take p.txSpace).take (capacity - p.tx.length)
  ({ p with tx := p.tx ++ accepted }, accepted.length)

/-- Bytes arrive on the line; tells how many fit. -/
def inject (p : Port) (bs : Bytes) : Port × Nat :=
  let accepted := bs.take (capacity - p.rx.length)
  ({ p with rx := p.rx ++ accepted }, accepted.length)

/-- The next received byte. -/
def read (p : Port) : Port × Option UInt8 := ({ p with rx := p.rx.tail }, p.rx.head?)

/-- Bytes waiting to be read. -/
def available (p : Port) : Nat := p.rx.length

/-- Drops what was received. -/
def clear (p : Port) : Port := { p with rx := [] }

/-- Takes what was written into a buffer with room for `room` bytes. That the buffer
is full is noticed by one byte more, which is lost. -/
def takeTx (p : Port) (room : Nat) : Port × Bytes :=
  ({ p with tx := p.tx.drop (room + 1) }, p.tx.take room)

/-! ## Operations -/

/-- A use of a port, from either side. -/
inductive Operation where
  | write (bs : Bytes)
  | inject (bs : Bytes)
  | read
  | clear
  | setLimit (limit : Nat)
  | takeTx (room : Nat)
  deriving DecidableEq

inductive Outcome where
  /-- How many bytes were taken. -/
  | count (n : Nat)
  | byte (b : Option UInt8)
  | bytes (bs : Bytes)
  | done
  deriving DecidableEq

def perform (p : Port) : Operation → Port × Outcome
  | .write bs =>
    let (p, n) := p.write bs
    (p, .count n)
  | .inject bs =>
    let (p, n) := p.inject bs
    (p, .count n)
  | .read =>
    let (p, b) := p.read
    (p, .byte b)
  | .clear => (p.clear, .done)
  | .setLimit limit => (p.setLimit limit, .done)
  | .takeTx room =>
    let (p, bs) := p.takeTx room
    (p, .bytes bs)

theorem tx_write (p : Port) (bs : Bytes) :
    (p.write bs).1.tx = p.tx ++ bs.take (p.write bs).2 := by
  simp only [write, List.take_take, List.length_take]
  congr 1
  generalize min (capacity - p.tx.length) p.txSpace = n
  rw [← List.take_eq_take_min]

end Port

end GimbalLink
