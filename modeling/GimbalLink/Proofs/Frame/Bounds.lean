import GimbalLink.Proofs.Frame.Registers
/-
  The bounds of the registers.

  The registers hold a length and a buffer, and three things could go wrong with these: a byte
  for which there is no room in the buffer, a checksum read where the buffer has not come to
  yet, and a payload cut off behind its end. Here every access is checked (`collect?`, `take?`);
  one that leaves the buffer gives nothing.

  That none does hangs on a relation between the state, the length and the buffer: the length
  leaves room for the checksum, and the buffer holds less than both while they are collected,
  and just both when they are judged and taken (`Within`). The length and the buffer are set by
  different bytes, and left as they are by resets and by a frame that was taken, but then no
  state uses them.

  What is proved:
    1. `received?_eq`, `payload?_eq`: from a buffer that holds both, both are read.
    2. `perform?_eq`: within the bounds each use can be performed, checked or not, with the same
       outcome, and stays within them.
    3. `run_registers`: so every run of the registers can be performed, and is one of the
       receiver.
-/
namespace GimbalLink

/-- The state of a phase, without what was received. -/
def Phase.state : Phase → ReceiveState
  | .idle => .idle
  | .awaitLength _ => .awaitLength
  | .awaitCommand .. => .awaitCommand
  | .awaitPayload .. => .awaitPayload
  | .ready _ => .ready
  | .consumed => .consumed

namespace Registers

/-- The registers when they are made; a start byte stands in them before any was received. -/
def ofFilter (filter : StartFilter) : Registers := ⟨filter, .idle, .device, 0, 0, []⟩

/-! ## Checked accesses -/

/-- The two bytes behind the payload, if the buffer reaches so far. -/
def received? (x : Registers) : Option UInt16 := do
  let low ← x.buffer[x.length.toNat]?
  let high ← x.buffer[x.length.toNat + 1]?
  return UInt16.ofNat (leValue [low, high])

/-- The front of the buffer up to the length, if the buffer reaches so far. -/
def payload? (x : Registers) : Option Bytes :=
  if x.length.toNat ≤ x.buffer.length then some x.payload else none

def collect? (x : Registers) (b : UInt8) : Option (Registers × Reception) :=
  if Receiver.bufferSize ≤ x.buffer.length then none
  else
    let x := { x with buffer := x.buffer ++ [b] }
    if x.buffer.length < x.length.toNat + checksumSize then some (x, .more)
    else do
      let received ← x.received?
      let payload ← x.payload?
      if received = Frame.checksumOf x.length x.command payload then
        return ({ x with state := .ready }, .complete)
      else return (x.reset, .rejected .checksumMismatch)

/-- Only where a body is collected the buffer is read or grows. -/
def feed? (x : Registers) (b : UInt8) : Option (Registers × Reception) :=
  match x.state with
  | .awaitPayload => x.collect? b
  | _ => some (x.feed b)

def feedUntil? (x : Registers) : Bytes → Option (Registers × Except FrameError (Option Nat))
  | [] => some (x, .ok none)
  | b :: rest => do
    match ← x.feed? b with
    | (x, .complete) => return (x, .ok (some 1))
    | (x, .rejected e) => return (x, .error e)
    | (x, .more) =>
      match ← x.feedUntil? rest with
      | (x, .ok n) => return (x, .ok (n.map (· + 1)))
      | (x, .error e) => return (x, .error e)

def take? (x : Registers) : Option (Registers × Option Frame) :=
  match x.state with
  | .ready => do
    let payload ← x.payload?
    return ({ x with state := .consumed }, (Frame.make x.start x.command payload).toOption)
  | _ => some (x, none)

def perform? (x : Registers) : Receiver.Operation → Option (Registers × Receiver.Outcome)
  | .feed b => do
    let (x, reception) ← x.feed? b
    return (x, .fed reception)
  | .feedUntil bs => do
    let (x, result) ← x.feedUntil? bs
    return (x, .fedUntil result)
  | .take => do
    let (x, frame) ← x.take?
    return (x, .taken frame)
  | .reset => some (x.reset, .done)

/-! ## Within the bounds -/

/-- The length leaves room for the checksum wherever it is used. The buffer is short of both
while they are collected, and has both when they were verified. -/
def Within (x : Registers) : Prop :=
  match x.state with
  | .awaitCommand => x.length.toNat ≤ maxPayload
  | .awaitPayload =>
    x.length.toNat ≤ maxPayload ∧ x.buffer.length < x.length.toNat + checksumSize
  | .ready => x.length.toNat ≤ maxPayload ∧ x.buffer.length = x.length.toNat + checksumSize
  | _ => True

variable {x : Registers}

theorem within_reset (x : Registers) : x.reset.Within := trivial

theorem payload?_eq (h : x.length.toNat ≤ x.buffer.length) : x.payload? = some x.payload :=
  if_pos h

/-- Behind the payload stand the two bytes of the checksum, and nothing else. -/
theorem received?_eq (h : x.buffer.length = x.length.toNat + checksumSize) :
    x.received? = some x.received := by
  have hlow : x.length.toNat < x.buffer.length := by
    rw [h, checksumSize]
    omega
  have hhigh : x.length.toNat + 1 < x.buffer.length := by
    rw [h, checksumSize]
    omega
  have htwo : (x.buffer.drop x.length.toNat).take checksumSize =
      [x.buffer[x.length.toNat], x.buffer[x.length.toNat + 1]] := by
    rw [List.drop_eq_getElem_cons hlow, List.drop_eq_getElem_cons hhigh]
    rfl
  rw [received, htwo, received?]
  simp [List.getElem?_eq_getElem hlow, List.getElem?_eq_getElem hhigh]

theorem collect?_eq (h : x.Within) (hs : x.state = .awaitPayload) (b : UInt8) :
    x.collect? b = some (x.collect b) ∧ (x.collect b).1.Within := by
  simp only [Within, hs] at h
  obtain ⟨hlength, hbuffer⟩ := h
  have hroom : ¬Receiver.bufferSize ≤ x.buffer.length := by
    simp only [Receiver.bufferSize, maxPayload, checksumSize] at *
    omega
  simp only [collect?, collect, if_neg hroom]
  by_cases hmore : (x.buffer ++ [b]).length < x.length.toNat + checksumSize
  · simp only [if_pos hmore, true_and]
    simp only [Within, hs]
    exact ⟨hlength, hmore⟩
  · simp only [if_neg hmore]
    -- The byte that is not one of more is the last.
    have hfull : (x.buffer ++ [b]).length = x.length.toNat + checksumSize := by
      simp only [List.length_append, List.length_singleton] at hmore ⊢
      omega
    have hreceived := received?_eq (x := { x with buffer := x.buffer ++ [b] }) hfull
    have hpayload := payload?_eq (x := { x with buffer := x.buffer ++ [b] })
      (by simp only [hfull]; omega)
    simp only [hreceived, hpayload, Option.bind_eq_bind, Option.bind_some]
    split
    · exact ⟨rfl, hlength, hfull⟩
    · exact ⟨rfl, trivial⟩

theorem feed?_eq (h : x.Within) (b : UInt8) :
    x.feed? b = some (x.feed b) ∧ (x.feed b).1.Within := by
  rw [feed?, feed]
  cases hs : x.state with
  | idle =>
    refine ⟨rfl, ?_⟩
    cases x.filter.accept b with
    | none => exact h
    | some start => exact trivial
  | awaitLength =>
    refine ⟨rfl, ?_⟩
    dsimp only
    split
    · exact trivial
    · next hl =>
      show b.toNat ≤ maxPayload
      simp only [Receiver.bufferSize, checksumSize, maxPayload] at *
      omega
  | awaitCommand =>
    simp only [Within, hs] at h
    refine ⟨rfl, h, ?_⟩
    simp [checksumSize]
  | awaitPayload => exact collect?_eq h hs b
  | ready => exact ⟨rfl, h⟩
  | consumed => exact ⟨rfl, h⟩

theorem feedUntil?_eq (h : x.Within) (bs : Bytes) :
    x.feedUntil? bs = some (x.feedUntil bs) ∧ (x.feedUntil bs).1.Within := by
  induction bs generalizing x with
  | nil => exact ⟨rfl, h⟩
  | cons b rest ih =>
    obtain ⟨hf, hw⟩ := feed?_eq h b
    rw [feedUntil?, feedUntil, hf]
    generalize x.feed b = fed at hw
    obtain ⟨y, reception⟩ := fed
    cases reception with
    | complete => exact ⟨rfl, hw⟩
    | rejected e => exact ⟨rfl, hw⟩
    | more =>
      obtain ⟨hr, hz⟩ := ih hw
      simp only [Option.bind_eq_bind, Option.bind_some, hr]
      generalize y.feedUntil rest = fed at hz
      obtain ⟨z, result⟩ := fed
      cases result <;> exact ⟨rfl, hz⟩

theorem take?_eq (h : x.Within) : x.take? = some x.take ∧ x.take.1.Within := by
  rw [take?, take]
  cases hs : x.state with
  | ready =>
    simp only [Within, hs] at h
    rw [payload?_eq (by omega)]
    exact ⟨rfl, trivial⟩
  | _ => exact ⟨rfl, h⟩

/-- Within the bounds every use can be performed, and stays within them. -/
theorem perform?_eq (h : x.Within) (op : Receiver.Operation) :
    x.perform? op = some (x.perform op) ∧ (x.perform op).1.Within := by
  cases op with
  | feed b =>
    obtain ⟨hf, hw⟩ := feed?_eq h b
    simp only [perform?, perform, hf]
    exact ⟨rfl, hw⟩
  | feedUntil bs =>
    obtain ⟨hf, hw⟩ := feedUntil?_eq h bs
    simp only [perform?, perform, hf]
    exact ⟨rfl, hw⟩
  | take =>
    obtain ⟨ht, hw⟩ := take?_eq h
    simp only [perform?, perform, ht]
    exact ⟨rfl, hw⟩
  | reset => exact ⟨rfl, x.within_reset⟩

/-! ## Runs -/

theorem state_phase (h : x.Fits) : x.phase.state = x.state := by
  cases hs : x.state with
  | ready =>
    obtain ⟨f, -, hv⟩ := view_ready h hs
    rw [(Receiver.mk.inj hv).2]
    rfl
  | _ => simp only [phase, hs, Phase.state]

/-- Every run of new registers can be performed. It has the outcomes of the receiver's run, and
ends in the state and with the phase that the receiver ends with. -/
theorem run_registers (filter : StartFilter) (ops : List Receiver.Operation) :
    ∃ x, run? perform? (ofFilter filter) ops =
        some (x, (run Receiver.perform (.ofFilter filter) ops).2) ∧
      x.view = (run Receiver.perform (.ofFilter filter) ops).1 ∧
      x.state = (run Receiver.perform (.ofFilter filter) ops).1.phase.state := by
  have hchecked := run?_eq (fun y op (hy : y.Within) => perform?_eq hy op)
    (s := ofFilter filter) trivial ops
  obtain ⟨hfits, hview⟩ := run_refines view (fun y op (hy : y.Fits) => perform_refines hy op)
    (s := ofFilter filter) trivial ops
  have hnew : (ofFilter filter).view = .ofFilter filter := rfl
  rw [hnew] at hview
  refine ⟨(run perform (ofFilter filter) ops).1, ?_, ?_, ?_⟩
  · rw [hchecked, hview]
  · rw [hview]
  · rw [hview]
    exact (state_phase hfits).symm

end Registers

end GimbalLink
