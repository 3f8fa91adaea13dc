import GimbalLink.Channel.Port
import GimbalLink.Run
/-
  What becomes of the bytes written to a port.

  A write puts a front part of its bytes behind what waits, however the limit has been moved, and
  a take hands out what waits from the front. Between the two a byte can be lost: a take moves
  one byte after the other, and the byte that tells it that its buffer is full is out of the queue
  by then (`moveInto`). So a port conserves its bytes as long as each take has room for all that
  waits, and every other take costs it one byte.

  What is proved:
    1. `takeTx_eq_moveInto`: a take is the move of one byte after the other.
    2. `perform_accounts`: what waited and what an operation put in is what it handed out, what it
       lost and what then waits.
    3. `run_accounts`: for every run, what was handed out and what waits is, in order, what was
       accepted, but for one byte for each take that found more than it had room for; and
       `byte_lost` is a run with such a take.
-/
namespace GimbalLink

namespace Port

/-! ## Moving bytes -/

/-- Moves bytes one by one from a queue into a buffer with some room, and stops when the queue is
empty or the byte that was taken from it does not fit. -/
def moveInto (room : Nat) : Bytes → Bytes → Bytes × Bytes
  | [], buffer => ([], buffer)
  | b :: queue, buffer =>
    if buffer.length < room then moveInto room queue (buffer ++ [b]) else (queue, buffer)

theorem moveInto_eq {room : Nat} (queue : Bytes) {buffer : Bytes} (h : buffer.length ≤ room) :
    moveInto room queue buffer =
      (queue.drop (room - buffer.length + 1), buffer ++ queue.take (room - buffer.length)) := by
  induction queue generalizing buffer with
  | nil => simp [moveInto]
  | cons b queue ih =>
    rw [moveInto]
    by_cases hroom : buffer.length < room
    · have hlength : (buffer ++ [b]).length = buffer.length + 1 := by simp
      have hleft : room - buffer.length = room - (buffer.length + 1) + 1 := by omega
      rw [if_pos hroom, ih (by omega), hlength, hleft, List.drop_succ_cons, List.take_succ_cons,
        List.append_assoc]
      rfl
    · have hfull : room - buffer.length = 0 := by omega
      rw [if_neg hroom, hfull, List.take_zero, List.append_nil]
      rfl

theorem takeTx_eq_moveInto (p : Port) (room : Nat) :
    p.takeTx room =
      ({ p with tx := (moveInto room p.tx []).1 }, (moveInto room p.tx []).2) := by
  rw [moveInto_eq p.tx (Nat.zero_le room)]
  rfl

/-! ## One operation -/

/-- What an operation with this outcome put into the queue. -/
def Operation.accepted : Operation → Outcome → Bytes
  | .write bs, .count n => bs.take n
  | _, _ => []

/-- The bytes handed out. -/
def Outcome.taken : Outcome → Bytes
  | .bytes bs => bs
  | _ => []

/-- The first byte that a take has no room for. -/
def lost (p : Port) : Operation → Bytes
  | .takeTx room => (p.tx.drop room).take 1
  | _ => []

theorem length_lost_takeTx (p : Port) (room : Nat) :
    (p.lost (.takeTx room)).length = if room < p.tx.length then 1 else 0 := by
  rw [lost, List.length_take, List.length_drop]
  split <;> omega

theorem takeTx_accounts (p : Port) (room : Nat) :
    p.tx = (p.takeTx room).2 ++ p.lost (.takeTx room) ++ (p.takeTx room).1.tx := by
  have hbehind : p.tx.drop (room + 1) = (p.tx.drop room).drop 1 := by rw [List.drop_drop]
  show p.tx = p.tx.take room ++ (p.tx.drop room).take 1 ++ p.tx.drop (room + 1)
  rw [hbehind, List.append_assoc, List.take_append_drop, List.take_append_drop]

theorem perform_accounts (p : Port) (op : Operation) :
    p.tx ++ op.accepted (p.perform op).2 =
      (p.perform op).2.taken ++ p.lost op ++ (p.perform op).1.tx := by
  cases op with
  | write bs => exact (p.tx_write bs).symm
  | takeTx room => exact (List.append_nil _).trans (p.takeTx_accounts room)
  | _ => exact List.append_nil _

/-! ## Runs -/

/-- What was put into the queue over a run, in order. -/
def acceptedBytes (ops : List Operation) (outcomes : List Outcome) : Bytes :=
  (List.zipWith Operation.accepted ops outcomes).flatten

/-- What takes have no room for over a run, in order. -/
def lostOver (p : Port) : List Operation → Bytes
  | [] => []
  | op :: rest => p.lost op ++ (p.perform op).1.lostOver rest

/-- What is left of the bytes of a run: those handed out, and those that wait. -/
def kept (p : Port) (ops : List Operation) : Bytes :=
  (run perform p ops).2.flatMap Outcome.taken ++ (run perform p ops).1.tx

/-- What waited before a run, and what was put behind it. -/
def offered (p : Port) (ops : List Operation) : Bytes :=
  p.tx ++ acceptedBytes ops (run perform p ops).2

variable {p : Port}

theorem kept_cons (op : Operation) (rest : List Operation) :
    p.kept (op :: rest) = (p.perform op).2.taken ++ (p.perform op).1.kept rest := by
  simp only [kept, run, List.flatMap_cons, List.append_assoc]

theorem offered_cons (op : Operation) (rest : List Operation) :
    p.offered (op :: rest) =
      (p.perform op).2.taken ++ p.lost op ++ (p.perform op).1.offered rest := by
  calc p.offered (op :: rest)
      = p.tx ++ op.accepted (p.perform op).2 ++
          acceptedBytes rest (run perform (p.perform op).1 rest).2 := by
        simp only [offered, acceptedBytes, run, List.zipWith_cons_cons, List.flatten_cons,
          List.append_assoc]
    _ = (p.perform op).2.taken ++ p.lost op ++ (p.perform op).1.offered rest := by
      rw [perform_accounts, offered, List.append_assoc]

/-- No byte comes twice, or before one that was accepted earlier. -/
theorem kept_sublist (p : Port) (ops : List Operation) : (p.kept ops).Sublist (p.offered ops) := by
  induction ops generalizing p with
  | nil => simp [kept, offered, acceptedBytes, run]
  | cons op rest ih =>
    rw [kept_cons, offered_cons, List.append_assoc]
    refine (List.Sublist.refl _).append ?_
    exact (ih _).trans (List.sublist_append_right _ _)

/-- Each byte is kept or lost. -/
theorem kept_lost_perm (p : Port) (ops : List Operation) :
    (p.kept ops ++ p.lostOver ops).Perm (p.offered ops) := by
  induction ops generalizing p with
  | nil => simp [kept, offered, acceptedBytes, lostOver, run]
  | cons op rest ih =>
    rw [kept_cons, offered_cons, lostOver, List.append_assoc, List.append_assoc]
    refine List.Perm.append_left _ ?_
    have hswap := List.perm_append_comm_assoc ((p.perform op).1.kept rest) (p.lost op)
      ((p.perform op).1.lostOver rest)
    exact hswap.trans ((ih _).append_left (p.lost op))

theorem lost_eq_nil_iff (op : Operation) :
    p.lost op = [] ↔ ∀ room, op = .takeTx room → p.tx.length ≤ room := by
  cases op with
  | takeTx room =>
    rw [← List.length_eq_zero_iff, length_lost_takeTx]
    constructor
    · intro h _ hop
      cases hop
      split at h <;> omega
    · intro h
      rw [if_neg (Nat.not_lt.2 (h room rfl))]
  | _ => exact iff_of_true rfl nofun

theorem lostOver_eq_nil_iff (ops : List Operation) :
    p.lostOver ops = [] ↔ ∀ before room rest, ops = before ++ .takeTx room :: rest →
      (run perform p before).1.tx.length ≤ room := by
  induction ops generalizing p with
  | nil => exact iff_of_true rfl fun before room rest h => by simp at h
  | cons op ops ih =>
    rw [lostOver, List.append_eq_nil_iff, lost_eq_nil_iff, ih]
    constructor
    · rintro ⟨hop, hrest⟩ before room rest hsplit
      cases before with
      | nil => exact hop room (List.cons.inj hsplit).1
      | cons first before =>
        obtain ⟨rfl, htail⟩ := List.cons.inj hsplit
        exact hrest before room rest htail
    · intro h
      refine ⟨fun room hop => h [] room ops (by rw [hop]; rfl), fun before room rest hsplit => ?_⟩
      exact h (op :: before) room rest (by rw [hsplit]; rfl)

theorem kept_eq_offered_iff (ops : List Operation) :
    p.kept ops = p.offered ops ↔ p.lostOver ops = [] := by
  have hlength := (p.kept_lost_perm ops).length_eq
  rw [List.length_append] at hlength
  constructor
  · intro h
    rw [h] at hlength
    exact List.eq_nil_of_length_eq_zero (by omega)
  · intro h
    rw [h, List.length_nil, Nat.add_zero] at hlength
    exact (p.kept_sublist ops).eq_of_length hlength

/-- What a run from a new port does with the bytes that were accepted, and what the next take
will do. -/
structure Accounted (ops : List Operation) : Prop where
  offered_eq : new.offered ops = acceptedBytes ops (run perform new ops).2
  in_order : (new.kept ops).Sublist (new.offered ops)
  complete : (new.kept ops ++ new.lostOver ops).Perm (new.offered ops)
  /-- All is conserved just if no take finds more than it has room for. -/
  conserves_iff : new.kept ops = new.offered ops ↔ ∀ before room rest,
    ops = before ++ .takeTx room :: rest → (run perform new before).1.tx.length ≤ room
  /-- A take moves one byte after the other. -/
  take_moves : ∀ room, (run perform new ops).1.takeTx room =
    ({ (run perform new ops).1 with tx := (moveInto room (run perform new ops).1.tx []).1 },
      (moveInto room (run perform new ops).1.tx []).2)
  /-- It loses one byte, the first that it has no room for, or none. -/
  take_eq : ∀ room, ∃ lost, (run perform new ops).1.tx =
      ((run perform new ops).1.takeTx room).2 ++ lost ++
        ((run perform new ops).1.takeTx room).1.tx ∧
    lost.length = if room < (run perform new ops).1.tx.length then 1 else 0
  /-- It hands out as much as it has room for. -/
  length_take : ∀ room, ((run perform new ops).1.takeTx room).2.length =
    min room (run perform new ops).1.tx.length

/-- Bytes are neither doubled nor reordered on their way through a port, however the writes, the
limits and the takes follow each other; and none is lost just if no take finds more bytes
than it has room for. -/
theorem run_accounts (ops : List Operation) : Accounted ops where
  offered_eq := List.nil_append _
  in_order := new.kept_sublist ops
  complete := new.kept_lost_perm ops
  conserves_iff := (kept_eq_offered_iff ops).trans (lostOver_eq_nil_iff ops)
  take_moves room := takeTx_eq_moveInto _ room
  take_eq room := ⟨_, takeTx_accounts _ room, length_lost_takeTx _ room⟩
  length_take _ := List.length_take

/-- A take with room for one byte, while three wait. -/
def overfullTake : List Operation := [.write [0x48, 0x69, 0x21], .takeTx 1, .takeTx 8]

/-- The byte in the middle is gone, and the take removed more than it had room for. -/
theorem byte_lost :
    (run perform new overfullTake).2 = [.count 3, .bytes [0x48], .bytes [0x21]] ∧
    new.offered overfullTake = [0x48, 0x69, 0x21] ∧ new.kept overfullTake = [0x48, 0x21] ∧
    ¬(∀ ops, new.kept ops = acceptedBytes ops (run perform new ops).2) ∧
    ¬∀ ops room, (run perform new ops).1.tx.length ≤
      ((run perform new ops).1.takeTx room).1.tx.length + room := by
  refine ⟨rfl, rfl, rfl, fun h => ?_, fun h => ?_⟩
  · exact absurd (h overfullTake) (by decide)
  · exact absurd (h [.write [0x48, 0x69, 0x21]] 1) (by decide)

end Port

end GimbalLink
