import GimbalLink.Proofs.Listeners.Board
import GimbalLink.Run
import Mathlib.Data.List.Find
/-
  The listener registry refines its board.

  A registry has two tables and, with each id, a count of the listeners bound to it, which
  goes up when a slot is filled and down when one is emptied. The board has no counts, so
  the whole proof turns on them: between two calls each count is the number of slots bound
  to its id (`Registry.Consistent`). There are at most 255 slots, so a count never
  saturates. Emptying the slots of a listener lowers several counts, some more than once;
  `taken_lower` follows this binding by binding.

  What is proved:
    1. Each change of the tables is the change of the board (`board_bind`, `board_store`,
       `board_allocate`, `board_unbind`), and it keeps the counts right
       (`Consistent.bind`, `.store`, `.allocate`, `.unbind`).
    2. `use_eq_board`, `use_refines`: each use of the registry has the outcome that it has on
       the board.
    3. `run_use_eq_board`: so has each use of a run, whatever the run.
-/
namespace GimbalLink

variable {L V α : Type}

/-! ## The tables of a registry and its board -/

namespace Registry

variable {r : Registry L V}

theorem board_mapTaken (r : Registry L V) (id : UInt8) (count : UInt8 → UInt8) :
    (r.mapEntry id fun e => { e with taken := count e.taken }).board = r.board := by
  simp only [board, mapEntry, List.map_map]
  congr 1
  apply List.map_congr_left
  intro e _
  rw [Function.comp_apply]
  split <;> rfl

theorem board_bind (r : Registry L V) (slot : Nat) (id : UInt8) (l : L) :
    (r.bind slot id l).board = r.board.fill slot ⟨id, l⟩ :=
  congrArg (Board.fill · slot ⟨id, l⟩) (board_mapTaken r id countUp)

theorem board_store (r : Registry L V) (id : UInt8) (value : V) :
    (r.store id value).board = r.board.store id value := by
  simp only [board, store, mapEntry, Board.store, List.map_map]
  congr 1
  apply List.map_congr_left
  intro e _
  rw [Function.comp_apply, Function.comp_apply]
  by_cases h : e.id = id
  · rw [if_pos h, if_pos h, ← h]
  · rw [if_neg h, if_neg h]

theorem mem_ids_board {id : UInt8} : id ∈ r.board.ids ↔ (r.entry? id).isSome = true := by
  simp [Board.ids, board, entry?, List.find?_isSome]

theorem value?_board (r : Registry L V) (id : UInt8) :
    r.board.value? id = (r.entry? id).map (·.value) := by
  simp only [Board.value?, board, entry?]
  induction r.entries with
  | nil => rfl
  | cons e rest ih =>
    simp only [List.map_cons, List.lookup_cons, List.find?_cons]
    by_cases h : e.id = id
    · simp [h]
    · have hb : (id == e.id) = false := beq_eq_false_iff_ne.2 (Ne.symm h)
      simp [h, hb, ih]

theorem board_allocate [Inhabited V] (r : Registry L V) (id : UInt8) :
    (r.allocate id).map board = r.board.allocate id := by
  rw [allocate, Board.allocate]
  by_cases hm : id ∈ r.board.ids
  · rw [if_pos hm, if_pos (mem_ids_board.1 hm)]
    rfl
  · have hl : r.board.known.length = r.entries.length := List.length_map _
    rw [if_neg hm, if_neg (mt mem_ids_board.2 hm), hl]
    show Option.map _ (if _ < r.idRoom then _ else _) = if _ < r.idRoom then _ else _
    split
    · simp [board]
    · rfl

/-! ## The counts -/

/-- A registry between two calls: its lock is free, and each count is right. -/
structure Consistent (r : Registry L V) : Prop where
  free : r.locked = false
  sound : r.board.Sound
  room_le : r.slots.length ≤ 255
  taken_eq : ∀ e ∈ r.entries, e.taken.toNat = r.board.boundTo e.id

theorem consistent_new (idRoom : Nat) {slotRoom : Nat} (h : slotRoom ≤ 255) :
    (new idRoom slotRoom : Registry L V).Consistent := by
  refine ⟨rfl, ⟨List.nodup_nil, Nat.zero_le _, ?_⟩, ?_, ?_⟩
  · intro x hx
    cases List.eq_of_mem_replicate hx
  · rw [new, List.length_replicate]
    exact h
  · intro e he
    cases he

theorem toNat_countUp {n : UInt8} (h : n.toNat < 255) : (countUp n).toNat = n.toNat + 1 := by
  have hn : n ≠ 255 := by
    rintro rfl
    exact absurd h (by decide)
  rw [countUp, if_neg hn, UInt8.toNat_add]
  exact Nat.mod_eq_of_lt (by simpa using Nat.succ_lt_succ h)

theorem toNat_countDown {n : UInt8} {k : Nat} (h : n.toNat = k + 1) : (countDown n).toNat = k := by
  have hn : n ≠ 0 := by
    rintro rfl
    cases h
  have hle : (1 : UInt8) ≤ n := by
    rw [UInt8.le_iff_toNat_le, h]
    exact Nat.le_add_left 1 k
  rw [countDown, if_neg hn, UInt8.toNat_sub_of_le _ _ hle, h]
  rfl

theorem mem_mapEntry {f : Entry V → Entry V} {id : UInt8} {e : Entry V}
    (h : e ∈ (r.mapEntry id f).entries) :
    ∃ old ∈ r.entries, e = if old.id = id then f old else old := by
  obtain ⟨old, ho, rfl⟩ := List.mem_map.1 h
  exact ⟨old, ho, rfl⟩

theorem Consistent.store (h : r.Consistent) (id : UInt8) (value : V) :
    (r.store id value).Consistent := by
  refine ⟨h.free, ?_, h.room_le, fun e he => ?_⟩
  · rw [board_store]
    exact h.sound.store id value
  · obtain ⟨old, ho, rfl⟩ := mem_mapEntry he
    have ht := h.taken_eq old ho
    split <;> exact ht

theorem Consistent.allocate [Inhabited V] (h : r.Consistent) {r' : Registry L V} {id : UInt8}
    (ha : r.allocate id = some r') : r'.Consistent := by
  have hb : r.board.allocate id = some r'.board := by
    rw [← board_allocate, ha, Option.map_some]
  have hs : r'.board.Sound := h.sound.allocate hb
  rw [Registry.allocate] at ha
  split at ha
  · cases ha
    exact h
  · next hn =>
    split at ha
    · cases ha
      refine ⟨h.free, hs, h.room_le, fun e he => ?_⟩
      obtain he | he := List.mem_append.1 he
      · exact h.taken_eq e he
      · -- No slot is bound to an id that was not there, so the count begins at zero.
        obtain rfl := List.mem_singleton.1 he
        exact (h.sound.boundTo_of_notMem (mt mem_ids_board.1 hn)).symm
    · cases ha

theorem Consistent.bind (h : r.Consistent) {slot : Nat} (hs : r.board.free? = some slot)
    {id : UInt8} (hid : id ∈ r.board.ids) (l : L) : (r.bind slot id l).Consistent := by
  have hn := Board.getElem?_of_free? hs
  refine ⟨h.free, ?_, ?_, fun e he => ?_⟩
  · rw [board_bind]
    exact h.sound.fill hid slot
  · show (r.slots.set slot _).length ≤ 255
    rw [List.length_set]
    exact h.room_le
  · rw [board_bind, Board.boundTo_fill hn]
    obtain ⟨old, ho, rfl⟩ := mem_mapEntry he
    have ht := h.taken_eq old ho
    by_cases hi : old.id = id
    · -- The slots bound to the id, with the new one, are no more than there are slots.
      have hle := Nat.le_trans (Board.boundTo_le (r.board.fill slot ⟨id, l⟩) id)
        (Nat.le_trans (Nat.le_of_eq List.length_set) h.room_le)
      rw [Board.boundTo_fill hn, if_pos rfl, ← hi, ← ht] at hle
      rw [if_pos hi, if_pos hi.symm, toNat_countUp hle, ht]
    · rw [if_neg hi, if_neg (Ne.symm hi), ht]
      rfl

/-- Lowers the counts of the ids of some bindings, one after the other. -/
def lower (r : Registry L V) (freed : List (Binding L)) : Registry L V :=
  freed.foldl (fun r x => r.mapEntry x.id fun e => { e with taken := countDown e.taken }) r

theorem board_lower (r : Registry L V) (freed : List (Binding L)) :
    (r.lower freed).board = r.board := by
  induction freed generalizing r with
  | nil => rfl
  | cons x rest ih => exact (ih _).trans (board_mapTaken r x.id countDown)

theorem locked_lower (r : Registry L V) (freed : List (Binding L)) :
    (r.lower freed).locked = r.locked := by
  induction freed generalizing r with
  | nil => rfl
  | cons x rest ih => exact ih _

theorem taken_lower (n : UInt8 → Nat) (freed : List (Binding L)) {r : Registry L V}
    (h : ∀ e ∈ r.entries, e.taken.toNat = n e.id + freed.countP (·.id = e.id)) :
    ∀ e ∈ (r.lower freed).entries, e.taken.toNat = n e.id := by
  induction freed generalizing r with
  | nil => exact h
  | cons x rest ih =>
    apply ih
    intro e he
    obtain ⟨old, ho, rfl⟩ := mem_mapEntry he
    have hold := h old ho
    rw [List.countP_cons] at hold
    -- The head lowers the count of its own id, and there it is one of those to be freed.
    by_cases hi : old.id = x.id
    · rw [if_pos (decide_eq_true hi.symm), ← Nat.add_assoc] at hold
      rw [if_pos hi]
      exact toNat_countDown hold
    · rw [if_neg (by simpa using Ne.symm hi)] at hold
      rw [if_neg hi]
      exact hold

section
variable [DecidableEq L]

theorem filter_slot (l : L) :
    Option.filter (fun x : Binding L => x.listener ≠ l) =
      fun s => if s.any (·.listener = l) then none else s := by
  funext s
  cases s with
  | none => rfl
  | some x => by_cases hx : x.listener = l <;> simp [Option.filter, hx]

theorem board_unbind (r : Registry L V) (l : L) : (r.unbind l).board = r.board.clear l := by
  have hl := board_lower r (r.bindings.filter (·.listener = l))
  calc (r.unbind l).board
      = { (r.lower (r.bindings.filter (·.listener = l))).board with
          slots := (r.lower (r.bindings.filter (·.listener = l))).board.slots.map
            (Option.filter (·.listener ≠ l)) } := rfl
    _ = { r.board with slots := r.board.slots.map (Option.filter (·.listener ≠ l)) } := by rw [hl]
    _ = r.board.clear l := by rw [filter_slot, Board.clear]

/-- The slots of an id are those that are kept and those that are freed. -/
theorem boundTo_clear (r : Registry L V) (l : L) (id : UInt8) :
    r.board.boundTo id = (r.board.clear l).boundTo id +
      (r.bindings.filter (·.listener = l)).countP (·.id = id) := by
  simp only [Board.boundTo, Board.clear, board, bindings]
  induction r.slots with
  | nil => rfl
  | cons s rest ih =>
    cases s with
    | none => simpa using ih
    | some x =>
      by_cases hl : x.listener = l
      · by_cases hi : x.id = id
        · simp [hl, hi] at ih ⊢
          omega
        · simpa [hl, hi] using ih
      · by_cases hi : x.id = id
        · simp [hl, hi] at ih ⊢
          omega
        · simpa [hl, hi] using ih

theorem Consistent.unbind (h : r.Consistent) (l : L) : (r.unbind l).Consistent := by
  refine ⟨(locked_lower r _).trans h.free, ?_, ?_, ?_⟩
  · rw [board_unbind]
    exact h.sound.clear l
  · show (r.unbind l).board.slots.length ≤ 255
    rw [board_unbind, Board.clear, List.length_map]
    exact h.room_le
  · rw [board_unbind]
    refine taken_lower _ _ fun e he => ?_
    rw [h.taken_eq e he]
    exact boundTo_clear r l e.id

end

/-! ## One call -/

theorem find?_taken (h : r.Consistent) :
    (r.entries.find? (·.taken = 0)).map (·.id) = r.board.unheard? := by
  have hi : r.board.ids = r.entries.map (·.id) := List.map_map
  rw [Board.unheard?, hi, List.find?_map]
  congr 1
  apply List.find?_congr
  intro e he
  rw [Function.comp_apply, ← h.taken_eq e he]
  exact decide_eq_decide.2 UInt8.toNat_inj.symm

section
variable [DecidableEq L] [Inhabited V]

theorem register_refines (h : r.Consistent) (l : L) (id : UInt8) :
    (r.register l id).1.Consistent ∧
      r.board.register l id = ((r.register l id).1.board, (r.register l id).2) := by
  have hfree : r.slots.findIdx? Option.isNone = r.board.free? := rfl
  have hold : r.slots.findIdx? (· = some ⟨id, l⟩) = r.board.slotOf? ⟨id, l⟩ := rfl
  rw [register, if_neg (by rw [h.free]; decide), Board.register, hfree, hold]
  by_cases hz : id = 0
  · -- The first id whose count is zero is the first that no slot is bound to.
    simp only [if_pos hz]
    cases hs : r.board.free? with
    | none => exact ⟨h, rfl⟩
    | some slot =>
      have hu := find?_taken h
      cases he : r.entries.find? (·.taken = 0) with
      | none =>
        rw [he] at hu
        simp only [← hu, Option.map_none]
        exact ⟨h, trivial⟩
      | some e =>
        rw [he] at hu
        have hm : e.id ∈ r.board.ids := List.mem_of_find?_eq_some hu.symm
        simp only [← hu, Option.map_some]
        refine ⟨h.bind hs hm l, ?_⟩
        rw [board_bind]
  · simp only [if_neg hz]
    cases ho : r.board.slotOf? ⟨id, l⟩ with
    | some slot => exact ⟨h, rfl⟩
    | none =>
      cases hs : r.board.free? with
      | none => exact ⟨h, rfl⟩
      | some slot =>
        have ha := board_allocate r id
        cases hr : r.allocate id with
        | none =>
          rw [hr] at ha
          simp only [← ha, Option.map_none]
          exact ⟨h, trivial⟩
        | some r' =>
          rw [hr] at ha
          -- Taking up an id leaves the slots alone, so the slot found before is free still.
          have hs' : r'.board.free? = some slot := by
            rw [← hs, Board.free?, Board.free?, Board.slots_of_allocate ha.symm]
          simp only [← ha, Option.map_some]
          refine ⟨(h.allocate hr).bind hs' (Board.mem_ids_of_allocate ha.symm) l, ?_⟩
          rw [board_bind]

omit [Inhabited V] in
theorem remove_eq (h : r.locked = false) (l : L) :
    r.remove l =
      if r.board.heldBy l = 0 then (r, .error .notRegistered)
      else (r.unbind l, .ok (r.board.heldBy l)) := by
  have hn : (r.bindings.filter (·.listener = l)).length = r.board.heldBy l := by
    rw [← List.countP_eq_length_filter, bindings, List.countP_filterMap]
    apply List.countP_congr
    intro s _
    cases s <;> rfl
  rw [remove, if_neg (by rw [h]; decide), hn]
  cases r.board.heldBy l <;> rfl

end

theorem handAll_hear (value : V) (ls : List L) (r : Registry L V) (heard : List (L × V)) :
    handAll hear value ls r heard = (r, heard ++ ls.map (·, value)) := by
  induction ls generalizing heard with
  | nil => rw [handAll, List.map_nil, List.append_nil]
  | cons l rest ih =>
    show handAll hear value rest r (heard ++ [(l, value)]) = _
    rw [ih, List.map_cons, List.append_assoc, List.singleton_append]

theorem notices_board (r : Registry L V) (id : UInt8) (value : V) :
    (r.listenersOf id).map (·, value) = r.board.notices id value := by
  simp only [listenersOf, bindings, List.filter_filterMap, List.map_filterMap, Option.map_map]
  rfl

theorem unlock_lock (h : r.locked = false) : r.lock.unlock = r := by
  cases r
  cases h
  rfl

theorem notify_eq (h : r.locked = false) (id : UInt8) :
    r.notify [] id hear = (r, (r.board.notify id).2, (r.board.notify id).1) := by
  rw [notify, if_neg (by rw [h]; decide), Board.notify, value?_board]
  cases r.entry? id with
  | none => rfl
  | some e =>
    have hlen : (r.listenersOf id).length = (r.board.notices id e.value).length := by
      rw [← notices_board, List.length_map]
    simp only [handAll_hear, unlock_lock h, notices_board, hlen, Option.map_some,
      List.nil_append]

section
variable [Inhabited V]

theorem locked_of_allocate {r' : Registry L V} {id : UInt8} (h : r.allocate id = some r') :
    r'.locked = r.locked := by
  rw [allocate] at h
  split at h
  · cases h
    rfl
  · split at h
    · cases h
      rfl
    · cases h

/-- A value that is stored for an id that was taken up is there. -/
theorem value?_store_of_allocate {r' : Registry L V} {id : UInt8} (h : r.allocate id = some r')
    (value : V) : (r'.store id value).board.value? id = some value := by
  have hb : r.board.allocate id = some r'.board := by rw [← board_allocate, h, Option.map_some]
  rw [board_store, Board.value?_store (Board.mem_ids_of_allocate hb)]

theorem visit_eq (h : r.locked = false) {σ : Type} (world : σ) (id : UInt8) (f : V → α × V) :
    r.visit world id (fun value r world => (r, world, f value)) =
      match r.allocate id with
      | none => (r, world, .error .full)
      | some r =>
        (r.store id (f ((r.board.value? id).getD default)).2, world,
          .ok (f ((r.board.value? id).getD default)).1) := by
  rw [visit, if_neg (by rw [h]; decide)]
  cases hr : r.allocate id with
  | none => rfl
  | some r' =>
    have hl (value : V) : (r'.lock.store id value).unlock = r'.store id value :=
      unlock_lock (r := r'.store id value) ((locked_of_allocate hr).trans h)
    simp only [value?_board, hl]

theorem publish_eq (h : r.locked = false) (id : UInt8) (value : V) :
    r.publish [] id value hear =
      match r.allocate id with
      | none => (r, [], .error .full)
      | some r => (r.store id value).notify [] id hear := by
  rw [publish, visit_eq h [] id fun _ => ((), value)]
  cases r.allocate id <;> rfl

variable [DecidableEq L]

/-- Only a registration looks at the counts, so with the lock free every other use has the
outcome that it has on the board, whatever the counts are. -/
theorem use_eq_board (h : r.locked = false) {u : Use L V α} (hu : u.isRegister = false) :
    (r.use u).1.locked = false ∧ r.board.use u = ((r.use u).1.board, (r.use u).2) := by
  cases u with
  | register l id => cases hu
  | remove l =>
    rw [use, remove_eq h, Board.use, Board.remove]
    by_cases hk : r.board.heldBy l = 0
    · simp only [if_pos hk]
      exact ⟨h, trivial⟩
    · simp only [if_neg hk]
      refine ⟨(locked_lower r _).trans h, ?_⟩
      rw [board_unbind]
  | visit id f =>
    rw [use, visit_eq h, Board.use, Board.visit, ← board_allocate]
    cases hr : r.allocate id with
    | none => exact ⟨h, rfl⟩
    | some r' =>
      refine ⟨(locked_of_allocate hr).trans h, ?_⟩
      simp only [Option.map_some, board_store]
  | notify id =>
    rw [use, notify_eq h]
    exact ⟨h, rfl⟩
  | publish id value =>
    -- The value is stored before it is handed out, so what is handed out is there.
    rw [use, publish_eq h, Board.use, Board.publish, ← board_allocate]
    cases hr : r.allocate id with
    | none => exact ⟨h, rfl⟩
    | some r' =>
      have hs : (r'.store id value).locked = false := (locked_of_allocate hr).trans h
      have hv := value?_store_of_allocate hr value
      have hn : (r'.store id value).board.notices id value = r'.board.notices id value := rfl
      simp only [notify_eq hs, Board.notify, hv, hn, Option.map_some]
      refine ⟨hs, ?_⟩
      rw [board_store]
  | count =>
    have hc : r.bindings.length = r.board.slots.countP Option.isSome :=
      List.length_filterMap_eq_countP
    refine ⟨h, ?_⟩
    rw [Board.use, use, listenerCount, if_neg (by rw [h]; decide), hc]

/-- The counts stay right. -/
theorem Consistent.use (h : r.Consistent) {u : Use L V α} (hu : u.isRegister = false) :
    (r.use u).1.Consistent := by
  cases u with
  | register l id => cases hu
  | remove l =>
    rw [Registry.use, remove_eq h.free]
    by_cases hk : r.board.heldBy l = 0
    · simp only [if_pos hk]
      exact h
    · simp only [if_neg hk]
      exact h.unbind l
  | visit id f =>
    rw [Registry.use, visit_eq h.free]
    cases hr : r.allocate id with
    | none => exact h
    | some r' => exact (h.allocate hr).store id _
  | notify id =>
    rw [Registry.use, notify_eq h.free]
    exact h
  | publish id value =>
    rw [Registry.use, publish_eq h.free]
    cases hr : r.allocate id with
    | none => exact h
    | some r' =>
      have hs := (h.allocate hr).store id value
      simp only [notify_eq hs.free]
      exact hs
  | count => exact h

theorem use_refines (h : r.Consistent) (u : Use L V α) :
    (r.use u).1.Consistent ∧ r.board.use u = ((r.use u).1.board, (r.use u).2) := by
  cases hu : u.isRegister with
  | false => exact ⟨h.use hu, (use_eq_board h.free hu).2⟩
  | true =>
    cases u with
    | register l id =>
      obtain ⟨hc, hb⟩ := register_refines h l id
      refine ⟨hc, ?_⟩
      rw [Board.use, hb]
      rfl
    | _ => cases hu

/-! ## Runs -/

/-- Whatever is done with a registry, its users see a board. -/
theorem run_use_eq_board (idRoom : Nat) {slotRoom : Nat} (h : slotRoom ≤ 255)
    (uses : List (Use L V α)) :
    (run use (new idRoom slotRoom) uses).2 = (run Board.use (Board.new idRoom slotRoom) uses).2 ∧
      (run use (new idRoom slotRoom) uses).1.board =
        (run Board.use (Board.new idRoom slotRoom) uses).1 ∧
      (run Board.use (Board.new idRoom slotRoom) uses).1.Sound ∧
      (run use (new idRoom slotRoom) uses).1.locked = false ∧
      ∀ id value, ((run use (new idRoom slotRoom) uses).1.use
        (.publish id value : Use L V α)).2.1 ≠ .number (.error .unknownId) := by
  have step (r : Registry L V) (u : Use L V α) (hr : r.Consistent) :
      (r.use u).1.Consistent ∧ r.board.use u = ((r.use u).1.board, (r.use u).2) :=
    use_refines hr u
  obtain ⟨hc, hr⟩ := run_refines board step (consistent_new idRoom h) uses
  change run Board.use (Board.new idRoom slotRoom) uses = _ at hr
  rw [hr]
  refine ⟨rfl, rfl, hc.sound, hc.free, fun id value => ?_⟩
  have hb := congrArg (fun result => result.2.1) (step _ (.publish id value) hc).2
  rw [← hb]
  intro hn
  exact Board.publish_ne_unknownId _ id value (Reply.number.inj hn)

/-- Two ids and two slots, used until each is short. -/
def crowdedUses : List (Use Nat Nat Nat) :=
  [.publish 71 5, .register 1 0, .register 2 0, .register 2 80, .register 3 90, .notify 90,
    .register 1 71, .publish 71 6, .remove 1, .remove 1, .register 2 71, .publish 71 7, .remove 2,
    .visit 71 fun v => (v, v + 1), .visit 90 fun v => (v, v), .count]

theorem run_use_crowded :
    2 ≤ 255 ∧ (run use (new 2 2) crowdedUses).2 =
      [(.number (.ok 0), []), (.number (.ok 1), []), (.number (.error .unknownId), []),
        (.number (.ok 2), []), (.number (.error .full), []),
        (.number (.error .unknownId), []), (.number (.ok 1), []), (.number (.ok 1), [(1, 6)]),
        (.number (.ok 1), []), (.number (.error .notRegistered), []), (.number (.ok 1), []),
        (.number (.ok 1), [(2, 7)]), (.number (.ok 2), []), (.value (.ok 7), []),
        (.value (.error .full), []), (.count (some 0), [])] :=
  ⟨by decide, (run_use_eq_board 2 (by decide) crowdedUses).1.trans rfl⟩

end

end Registry

end GimbalLink
