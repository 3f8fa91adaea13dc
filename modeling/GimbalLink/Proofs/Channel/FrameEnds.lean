import GimbalLink.Proofs.Channel.Receiving
/-
  Where the first frame of a stream ends.

  A stream that is read piece by piece holds its first valid frame from some byte on, and not
  before. This byte says which piece brings the frame, however the stream is cut.

  What is proved:
    1. `firstFrame_take_eq_some_iff`: a front part of a stream has the stream's first frame if
       it reaches to that byte, and none if it does not.
    2. `take_of_firstEnd`: the bytes up to there end with the frame's own.
    3. `frameEnding_eq_some_iff`: of the pieces of a stream, just the one that holds that byte
       brings a frame; `filterMap_deliveries`: all of them together bring the first frame.
-/
namespace GimbalLink

/-! ## Where the first frame ends -/

/-- The first frame that the events bring, and how many events there are up to it. -/
def firstCompletion : List (Option Event) → Option (Nat × Frame)
  | [] => none
  | event :: rest =>
    match event.bind Event.frame? with
    | some f => some (1, f)
    | none => (firstCompletion rest).map fun found => (found.1 + 1, found.2)

/-- The first valid frame of the gimbal in a stream, and how many bytes there are up to its
end. -/
def firstEnd (bs : Bytes) : Option (Nat × Frame) := firstCompletion (tokenize .device bs)

theorem firstCompleted_eq (events : List (Option Event)) :
    firstCompleted events = (firstCompletion events).map Prod.snd := by
  induction events with
  | nil => rfl
  | cons event rest ih =>
    rw [firstCompleted, List.findSome?_cons, firstCompletion]
    cases event.bind Event.frame? with
    | some f => rfl
    | none =>
      rw [Option.map_map]
      exact ih

theorem firstCompletion_take (events : List (Option Event)) (m : Nat) :
    firstCompletion (events.take m) = (firstCompletion events).filter fun found => found.1 ≤ m := by
  induction events generalizing m with
  | nil => rw [List.take_nil]; rfl
  | cons event rest ih =>
    cases m with
    | zero =>
      rw [List.take_zero, firstCompletion, firstCompletion]
      cases event.bind Event.frame? with
      | some f => rfl
      | none => cases firstCompletion rest <;> rfl
    | succ m =>
      rw [List.take_succ_cons, firstCompletion, firstCompletion]
      cases event.bind Event.frame? with
      | some f => simp [Option.filter]
      | none =>
        dsimp only
        rw [ih]
        cases firstCompletion rest with
        | none => rfl
        | some found => by_cases h : found.1 ≤ m <;> simp [Option.filter, h]

/-- What a stream brings up to a byte does not depend on what follows. -/
theorem tokenize_take (filter : StartFilter) (bs : Bytes) (m : Nat) :
    tokenize filter (bs.take m) = (tokenize filter bs).take m := by
  have hrun (cs : Bytes) : tokenize filter cs = (run Receiver.serve (.ofFilter filter) cs).2 :=
    tokenize_append_of_opens .nothing cs
  rw [hrun, hrun, run_take]

theorem firstFrame_eq (bs : Bytes) : firstFrame bs = (firstEnd bs).map Prod.snd :=
  firstCompleted_eq _

/-- A front part of a stream has the first frame if it reaches to the frame's end, and none if
it does not. -/
theorem firstFrame_take_eq_some_iff {bs : Bytes} {m : Nat} {f : Frame} :
    firstFrame (bs.take m) = some f ↔ ∃ n, firstEnd bs = some (n, f) ∧ n ≤ m := by
  have hfront : firstEnd (bs.take m) = (firstEnd bs).filter fun found => found.1 ≤ m := by
    rw [firstEnd, tokenize_take, firstCompletion_take]
    rfl
  rw [firstFrame_eq, hfront, Option.map_eq_some_iff]
  constructor
  · rintro ⟨⟨n, g⟩, hfound, rfl⟩
    obtain ⟨hend, hle⟩ := Option.filter_eq_some_iff.1 hfound
    exact ⟨n, hend, of_decide_eq_true hle⟩
  · rintro ⟨n, hend, hle⟩
    exact ⟨(n, f), Option.filter_eq_some_iff.2 ⟨hend, decide_eq_true hle⟩, rfl⟩

theorem firstFrame_left_eq_some_iff (seen rest : Bytes) {f : Frame} :
    firstFrame seen = some f ↔ ∃ n, firstEnd (seen ++ rest) = some (n, f) ∧ n ≤ seen.length := by
  rw [← firstFrame_take_eq_some_iff, List.take_left]

theorem firstFrame_append {seen : Bytes} {f : Frame} (h : firstFrame seen = some f)
    (rest : Bytes) : firstFrame (seen ++ rest) = some f := by
  obtain ⟨n, hend, -⟩ := (firstFrame_left_eq_some_iff seen rest).1 h
  rw [firstFrame_eq, hend]
  rfl

/-! ## The bytes of the first frame -/

theorem firstCompletion_replicate_append (k : Nat) (events : List (Option Event)) :
    firstCompletion (List.replicate k none ++ events) =
      (firstCompletion events).map fun found => (found.1 + k, found.2) := by
  induction k with
  | zero =>
    rw [List.replicate_zero, List.nil_append]
    cases firstCompletion events <;> rfl
  | succ k ih =>
    rw [List.replicate_succ, List.cons_append, firstCompletion, ih]
    cases firstCompletion events <;> rfl

/-- A body that is judged to complete a frame is, with what stands before it, the frame on the
wire. -/
theorem toBytes_of_judge {start : StartByte} {length command : UInt8} {body : Bytes}
    {hl : length.toNat ≤ maxPayload} {f : Frame} (hb : body.length = length.toNat + checksumSize)
    (h : (judge start length command body hl).frame? = some f) :
    f.toBytes = start.toByte :: length :: command :: body := by
  unfold judge at h
  split at h
  · next hsum =>
    obtain rfl : (⟨start, command, body.take length.toNat, _⟩ : Frame) = f := Option.some.inj h
    exact Frame.toBytes_of_checksum hl hb hsum
  · cases h

/-- Bytes that bring no frame stand in front of those that do. -/
theorem take_of_firstCompletion_map (seen : Bytes) {rest : Bytes} {found : Option (Nat × Frame)}
    {n : Nat} {f : Frame}
    (ih : ∀ {m}, found = some (m, f) → ∃ front, rest.take m = front ++ f.toBytes)
    (h : (found.map fun found => (found.1 + seen.length, found.2)) = some (n, f)) :
    ∃ front, (seen ++ rest).take n = front ++ f.toBytes := by
  obtain ⟨⟨m, g⟩, hfound, hn⟩ := Option.map_eq_some_iff.1 h
  obtain ⟨rfl, rfl⟩ := Prod.mk.inj hn
  obtain ⟨front, hfront⟩ := ih hfound
  refine ⟨seen ++ front, ?_⟩
  rw [Nat.add_comm, List.take_length_add_append, hfront, List.append_assoc]

/-- The bytes up to the end of the first frame end with the frame's own. -/
theorem take_of_firstCompletion (filter : StartFilter) (bs : Bytes) {n : Nat} {f : Frame}
    (h : firstCompletion (tokenize filter bs) = some (n, f)) :
    ∃ front, bs.take n = front ++ f.toBytes := by
  -- Along the scan: what it leaves behind is put in front of what it finds further on.
  fun_induction tokenize filter bs generalizing n with
  | case1 => cases h
  | case2 b rest hb ih => exact take_of_firstCompletion_map [b] ih h
  | case3 => cases h
  | case4 b start length hb rest hl ih =>
    exact take_of_firstCompletion_map [b, length] ih ((Option.map_map _ _ _).symm.trans h)
  | case5 => cases h
  | case6 b start length hb hl command rest size =>
    have hnone := firstCompletion_replicate_append (rest.length + 3) []
    rw [List.append_nil] at hnone
    cases hnone.symm.trans h
  | case7 b start length hb hl command rest size hfull =>
    rename_i ih
    have hbody : (rest.take size).length = size := List.length_take_of_le (Nat.le_of_not_lt hfull)
    have hevents : firstCompletion (List.replicate (size + 2) none ++
        (some (judge start length command (rest.take size) (Nat.le_of_not_lt hl)) ::
          tokenize filter (rest.drop size))) = some (n, f) := by
      have hsize : size + 2 = size - 1 + 3 := by
        show length.toNat + checksumSize + 2 = length.toNat + checksumSize - 1 + 3
        rw [checksumSize]
        omega
      rw [hsize]
      exact h
    have hbs : b :: length :: command :: rest =
        (b :: length :: command :: rest.take size) ++ rest.drop size := by
      simp only [List.cons_append, List.take_append_drop]
    have hseen : (b :: length :: command :: rest.take size).length = size + 3 := by
      simp only [List.length_cons, hbody]
    rw [firstCompletion_replicate_append, firstCompletion, Option.bind_some] at hevents
    cases hjudge : (judge start length command (rest.take size) (Nat.le_of_not_lt hl)).frame? with
    | some g =>
      rw [hjudge] at hevents
      cases hevents
      refine ⟨[], ?_⟩
      rw [toBytes_of_judge hbody hjudge, StartFilter.toByte_of_accept hb, hbs, Nat.add_comm]
      exact List.take_left' hseen
    | none =>
      rw [hjudge] at hevents
      rw [hbs]
      refine take_of_firstCompletion_map _ ih ?_
      rw [hseen, ← hevents, Option.map_map]
      congr 1
      funext found
      exact Prod.ext (by show _ = found.1 + 1 + (size + 2); omega) rfl

theorem take_of_firstEnd {bs : Bytes} {n : Nat} {f : Frame} (h : firstEnd bs = some (n, f)) :
    ∃ front, bs.take n = front ++ f.toBytes :=
  take_of_firstCompletion .device bs h

/-! ## Pieces of a stream -/

/-- The frame that a piece of a stream brings to its end, if the bytes seen before it hold
none. -/
def frameEnding (seen piece : Bytes) : Option Frame :=
  if (firstFrame seen).isSome then none else firstFrame (seen ++ piece)

/-- What each of some pieces of a stream brings. -/
def deliveries : Bytes → List Bytes → List (Option Frame)
  | _, [] => []
  | seen, piece :: rest => frameEnding seen piece :: deliveries (seen ++ piece) rest

theorem frameEnding_of_some {seen : Bytes} {f : Frame} (h : firstFrame seen = some f)
    (piece : Bytes) : frameEnding seen piece = none := by
  rw [frameEnding, h]
  rfl

theorem frameEnding_of_none {seen : Bytes} (h : firstFrame seen = none) (piece : Bytes) :
    frameEnding seen piece = firstFrame (seen ++ piece) := by
  rw [frameEnding, h]
  rfl

/-- A piece brings the frame just if it holds the last byte of it, whatever follows. -/
theorem frameEnding_eq_some_iff (seen piece rest : Bytes) {f : Frame} :
    frameEnding seen piece = some f ↔ ∃ n, firstEnd (seen ++ piece ++ rest) = some (n, f) ∧
      seen.length < n ∧ n ≤ seen.length + piece.length := by
  have hseen {g : Frame} := firstFrame_left_eq_some_iff seen (piece ++ rest) (f := g)
  have hboth := firstFrame_left_eq_some_iff (seen ++ piece) rest (f := f)
  rw [← List.append_assoc] at hseen
  rw [List.length_append] at hboth
  cases hfirst : firstFrame seen with
  | some g =>
    obtain ⟨n, hend, hle⟩ := hseen.1 hfirst
    rw [frameEnding_of_some hfirst]
    refine iff_of_false nofun ?_
    rintro ⟨m, hend', hlt, -⟩
    obtain ⟨rfl, -⟩ := Prod.mk.inj (Option.some.inj (hend.symm.trans hend'))
    omega
  | none =>
    rw [frameEnding_of_none hfirst, hboth]
    refine exists_congr fun n => and_congr_right fun hend => ?_
    refine (and_iff_right (Nat.lt_of_not_le fun hle => ?_)).symm
    cases hfirst.symm.trans (hseen.2 ⟨n, hend, hle⟩)

/-- Together the pieces of a stream bring its first frame, once. -/
theorem filterMap_deliveries (seen : Bytes) (pieces : List Bytes) :
    (deliveries seen pieces).filterMap id = (frameEnding seen pieces.flatten).toList := by
  induction pieces generalizing seen with
  | nil =>
    show [] = (frameEnding seen []).toList
    cases h : firstFrame seen with
    | some f => rw [frameEnding_of_some h]; rfl
    | none => rw [frameEnding_of_none h, List.append_nil, h]; rfl
  | cons piece rest ih =>
    rw [deliveries, List.filterMap_cons, ih, List.flatten_cons]
    cases h : firstFrame seen with
    | some f =>
      rw [frameEnding_of_some h, frameEnding_of_some h, frameEnding_of_some (firstFrame_append h _)]
      rfl
    | none =>
      rw [frameEnding_of_none h, frameEnding_of_none h, ← List.append_assoc]
      cases hboth : firstFrame (seen ++ piece) with
      | some f => rw [frameEnding_of_some hboth, firstFrame_append hboth]; rfl
      | none => rw [frameEnding_of_none hboth]; rfl

theorem deliveries_append (seen : Bytes) (before after : List Bytes) :
    deliveries seen (before ++ after) =
      deliveries seen before ++ deliveries (seen ++ before.flatten) after := by
  induction before generalizing seen with
  | nil => rw [List.flatten_nil, List.append_nil]; rfl
  | cons piece rest ih =>
    rw [List.cons_append, deliveries, deliveries, ih, List.flatten_cons, List.append_assoc]
    rfl

theorem length_deliveries (seen : Bytes) (pieces : List Bytes) :
    (deliveries seen pieces).length = pieces.length := by
  induction pieces generalizing seen with
  | nil => rfl
  | cons piece rest ih => rw [deliveries, List.length_cons, List.length_cons, ih]

end GimbalLink
