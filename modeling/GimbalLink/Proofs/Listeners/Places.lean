import GimbalLink.Proofs.Listeners.Refinement
/-
  Places in a registry.

  A listener that is bound to an id shares the registry with others: the id has a place among
  a bounded number of ids, and the binding one among a bounded number of slots. Both are its
  own for as long as nobody registers or removes the listener (`Board.Reserved`). An id once
  taken up is never given up, a registration fills an empty slot, and a removal empties no
  slot of another listener. So however full the others make the registry, what is stored for
  the id and what is handed to the listener hang on the uses that name the id.

  None of this looks at the counts, so there may be any number of slots.

  What is proved:
    1. `Registry.registered`: what can come of a registration, as a list.
    2. `Board.Reserved.use`, `Board.Reserved.registered`: others take no place away.
    3. `Board.Sound.reserved`: who registers with success has its places.
-/
namespace GimbalLink

variable {L V α : Type}

/-! ## What concerns an id -/

namespace Use

/-- What is stored for an id after a use, if `value` was before. -/
def leaves (n : UInt8) (value : V) : Use L V α → V
  | .visit id f => if id = n then (f value).2 else value
  | .publish id new => if id = n then new else value
  | _ => value

/-- What a use delivers for an id, if `value` is stored for it. -/
def delivers (n : UInt8) (value : V) : Use L V α → Option V
  | .notify id => if id = n then some value else none
  | .publish id new => if id = n then some new else none
  | _ => none

end Use

/-! ## Places -/

namespace Board

/-- A value is stored for an id, a slot is bound to the id for a listener, and none is bound
to another id for it. -/
structure Reserved (b : Board L V) (l : L) (n : UInt8) (value : V) : Prop where
  value_eq : b.value? n = some value
  bound : some ⟨n, l⟩ ∈ b.slots
  only : ∀ x, some x ∈ b.slots → x.listener = l → x.id = n

variable {b b' : Board L V} {l k : L} {n id : UInt8} {slot : Nat} {value : V}

theorem mem_ids_iff : n ∈ b.ids ↔ ∃ value, b.value? n = some value := by
  rw [ids, value?]
  induction b.known with
  | nil => simp
  | cons p rest ih =>
    rw [List.map_cons, List.mem_cons, List.lookup_cons]
    by_cases hp : n = p.1
    · simp [hp]
    · have hb : (n == p.1) = false := beq_eq_false_iff_ne.2 hp
      simp [hp, hb, ih]

theorem value?_store_of_ne (h : id ≠ n) (b : Board L V) (new : V) :
    (b.store id new).value? n = b.value? n := by
  simp only [value?, store]
  induction b.known with
  | nil => rfl
  | cons p rest ih =>
    rw [List.map_cons, List.lookup_cons, List.lookup_cons]
    by_cases hp : p.1 = id
    · have hn : (n == id) = false := beq_eq_false_iff_ne.2 (Ne.symm h)
      have hn' : (n == p.1) = false := hp ▸ hn
      rw [if_pos hp, hn, hn', ih]
    · rw [if_neg hp, ih]

theorem value?_allocate [Inhabited V] (hn : n ∈ b.ids) (ha : b.allocate id = some b') :
    b'.value? n = b.value? n := by
  obtain ⟨-, rfl⟩ | ⟨hm, -, rfl⟩ := allocate_cases ha
  · rfl
  · have hne : (n == id) = false := beq_eq_false_iff_ne.2 fun h => hm (h ▸ hn)
    rw [value?, List.lookup_append, List.lookup_cons, hne, List.lookup_nil, Option.or_none]
    rfl

theorem mem_notices {x : L × V} :
    x ∈ b.notices id value ↔ x.2 = value ∧ some ⟨id, x.1⟩ ∈ b.slots := by
  obtain ⟨l, v⟩ := x
  simp only [notices, List.mem_filterMap, Option.map_eq_some_iff, Option.filter_eq_some_iff,
    Prod.mk.injEq, decide_eq_true_eq]
  constructor
  · rintro ⟨s, hs, x, ⟨rfl, rfl⟩, rfl, rfl⟩
    exact ⟨rfl, hs⟩
  · rintro ⟨rfl, hs⟩
    exact ⟨_, hs, _, ⟨rfl, rfl⟩, rfl, rfl⟩

/-- What can come of a registration. Which id is given to a listener that names none hangs on
the counts of the registry, which a board does not have. -/
inductive Registered [Inhabited V] (b : Board L V) (l : L) (id : UInt8) :
    Board L V × Except RegistryError Nat → Prop where
  | refused (e : RegistryError) : Registered b l id (b, .error e)
  | kept (hz : id ≠ 0) (h : some ⟨id, l⟩ ∈ b.slots) (slot : Nat) :
    Registered b l id (b, .ok (slot + 1))
  | given {slot : Nat} {free : UInt8} (hz : id = 0) (hs : b.slots[slot]? = some none)
    (hm : free ∈ b.ids) : Registered b l id (b.fill slot ⟨free, l⟩, .ok (slot + 1))
  | named {slot : Nat} {b' : Board L V} (hz : id ≠ 0) (hs : b.slots[slot]? = some none)
    (ha : b.allocate id = some b') : Registered b l id (b'.fill slot ⟨id, l⟩, .ok (slot + 1))

namespace Reserved

theorem known (h : b.Reserved l n value) : n ∈ b.ids := mem_ids_iff.2 ⟨value, h.value_eq⟩

theorem bound_iff (h : b.Reserved l n value) : some ⟨id, l⟩ ∈ b.slots ↔ id = n :=
  ⟨fun hx => h.only _ hx rfl, fun hid => hid ▸ h.bound⟩

theorem allocate [Inhabited V] (h : b.Reserved l n value) (ha : b.allocate id = some b') :
    b'.Reserved l n value := by
  have hs := slots_of_allocate ha
  exact ⟨(value?_allocate h.known ha).trans h.value_eq, hs.symm ▸ h.bound, hs.symm ▸ h.only⟩

/-- The id has a place, so it need not be taken up. -/
theorem allocate_self [Inhabited V] (h : b.Reserved l n value) : b.allocate n = some b :=
  if_pos h.known

theorem store_self (h : b.Reserved l n value) (new : V) : (b.store n new).Reserved l n new :=
  ⟨value?_store h.known new, h.bound, h.only⟩

theorem store_of_ne (h : b.Reserved l n value) (hid : id ≠ n) (new : V) :
    (b.store id new).Reserved l n value :=
  ⟨(value?_store_of_ne hid b new).trans h.value_eq, h.bound, h.only⟩

/-- A binding of another listener goes into a slot that is empty. -/
theorem fill (h : b.Reserved l n value) (hs : b.slots[slot]? = some none) {x : Binding L}
    (hx : x.listener ≠ l) : (b.fill slot x).Reserved l n value := by
  refine ⟨h.value_eq, ?_, fun y hy hl => ?_⟩
  · obtain ⟨i, hi⟩ := List.mem_iff_getElem?.1 h.bound
    have hne : slot ≠ i := by
      rintro rfl
      exact nomatch hs.symm.trans hi
    refine List.mem_iff_getElem?.2 ⟨i, ?_⟩
    show (b.slots.set slot (some x))[i]? = _
    rw [List.getElem?_set_ne hne, hi]
  · obtain hy | hy := List.mem_or_eq_of_mem_set hy
    · exact h.only y hy hl
    · cases hy
      exact absurd hl hx

theorem clear [DecidableEq L] (h : b.Reserved l n value) (hk : k ≠ l) :
    (b.clear k).Reserved l n value := by
  refine ⟨h.value_eq, ?_, fun x hx hl => ?_⟩
  · refine List.mem_map.2 ⟨_, h.bound, ?_⟩
    simp [hk.symm]
  · obtain ⟨s, hs, he⟩ := List.mem_map.1 hx
    split at he
    · cases he
    · subst he
      exact h.only x hs hl

section
variable [DecidableEq L] [Inhabited V]

/-- No use by others takes a place away, and what is stored and delivered for the id in a use
is told by the use alone. -/
theorem use (h : b.Reserved l n value) {u : Use L V α} (hu : u.isRegister = false)
    (hl : u ≠ .remove l) :
    (b.use u).1.Reserved l n (u.leaves n value) ∧
      ∀ new, (l, new) ∈ (b.use u).2.2 ↔ u.delivers n value = some new := by
  cases u with
  | register k id => cases hu
  | remove k =>
    have hk : k ≠ l := fun hk => hl (hk ▸ rfl)
    refine ⟨?_, by simp [Board.use, Use.delivers]⟩
    simp only [Board.use, Board.remove, Use.leaves]
    split
    · exact h
    · exact h.clear hk
  | visit id f =>
    refine ⟨?_, by simp [Board.use, Use.delivers]⟩
    simp only [Board.use, Board.visit, Use.leaves]
    by_cases hid : id = n
    · subst hid
      rw [h.allocate_self, if_pos rfl]
      simp only [h.value_eq, Option.getD_some]
      exact h.store_self _
    · rw [if_neg hid]
      cases ha : b.allocate id with
      | none => exact h
      | some b' => exact (h.allocate ha).store_of_ne hid _
  | notify id =>
    refine ⟨h, fun new => ?_⟩
    simp only [Board.use, Board.notify, Use.delivers]
    by_cases hid : id = n
    · subst hid
      simp only [h.value_eq, mem_notices, h.bound_iff]
      simp [eq_comm]
    · rw [if_neg hid]
      cases b.value? id with
      | none => simp
      | some v => simp [mem_notices, h.bound_iff, hid]
  | publish id new =>
    simp only [Board.use, Board.publish, Use.leaves, Use.delivers]
    -- For the id itself no place is needed; others may find no room, which is no harm.
    by_cases hid : id = n
    · subst hid
      rw [h.allocate_self]
      refine ⟨?_, fun v => ?_⟩
      · rw [if_pos rfl]
        exact h.store_self new
      · simp only [mem_notices, h.bound_iff]
        simp [eq_comm]
    · rw [if_neg hid, if_neg hid]
      cases ha : b.allocate id with
      | none => exact ⟨h, by simp⟩
      | some b' =>
        have hr := h.allocate ha
        refine ⟨hr.store_of_ne hid new, fun v => ?_⟩
        simp [mem_notices, hr.bound_iff, hid]
  | count => exact ⟨h, by simp [Board.use, Use.delivers]⟩

end

theorem registered [Inhabited V] (h : b.Reserved l n value) (hk : k ≠ l)
    {result : Board L V × Except RegistryError Nat} (hr : b.Registered k id result) :
    result.1.Reserved l n value := by
  cases hr with
  | refused e => exact h
  | kept hz hm slot => exact h
  | given hz hs hm => exact h.fill hs hk
  | named hz hs ha => exact (h.allocate ha).fill (slots_of_allocate ha ▸ hs) hk

end Reserved

/-- A listener that is bound to no other id, and registers with success, has its places. -/
theorem Sound.reserved [Inhabited V] (hb : b.Sound) (hn : n ≠ 0)
    (honly : ∀ x, some x ∈ b.slots → x.listener = l → x.id = n)
    {result : Board L V × Except RegistryError Nat} (hr : b.Registered l n result)
    (hok : ∃ slot, result.2 = .ok slot) : ∃ value, result.1.Reserved l n value := by
  cases hr with
  | refused e =>
    obtain ⟨slot, hslot⟩ := hok
    cases hslot
  | kept hz hm slot =>
    obtain ⟨value, hv⟩ := mem_ids_iff.1 (hb.bound_mem _ hm)
    exact ⟨value, hv, hm, honly⟩
  | given hz hs hm => exact absurd hz hn
  | @named slot b' hz hs ha =>
    obtain ⟨value, hv⟩ := mem_ids_iff.1 (mem_ids_of_allocate ha)
    have hslots := slots_of_allocate ha
    refine ⟨value, hv, ?_, fun x hx hl => ?_⟩
    · obtain ⟨hlt, -⟩ := List.getElem?_eq_some_iff.1 hs
      exact List.mem_set (hslots.symm ▸ hlt) _
    · obtain hx | hx := List.mem_or_eq_of_mem_set hx
      · exact honly x (hslots ▸ hx) hl
      · cases hx
        rfl

theorem Sound.registered [Inhabited V] (hb : b.Sound)
    {result : Board L V × Except RegistryError Nat} (hr : b.Registered l id result) :
    result.1.Sound := by
  cases hr with
  | refused e => exact hb
  | kept hz hm slot => exact hb
  | given hz hs hm => exact hb.fill hm _
  | named hz hs ha => exact (hb.allocate ha).fill (mem_ids_of_allocate ha) _

theorem Sound.use [DecidableEq L] [Inhabited V] (hb : b.Sound) {u : Use L V α}
    (hu : u.isRegister = false) : (b.use u).1.Sound := by
  cases u with
  | register l id => cases hu
  | remove l =>
    simp only [Board.use, Board.remove]
    split
    · exact hb
    · exact hb.clear l
  | visit id f =>
    simp only [Board.use, Board.visit]
    cases ha : b.allocate id with
    | none => exact hb
    | some b' => exact (hb.allocate ha).store id _
  | publish id new =>
    simp only [Board.use, Board.publish]
    cases ha : b.allocate id with
    | none => exact hb
    | some b' => exact (hb.allocate ha).store id new
  | _ => exact hb

end Board

namespace Registry

variable [DecidableEq L] [Inhabited V] {r : Registry L V}

theorem registered (h : r.locked = false) (l : L) (id : UInt8) :
    (r.register l id).1.locked = false ∧
      r.board.Registered l id ((r.register l id).1.board, (r.register l id).2) := by
  have hfree : r.slots.findIdx? Option.isNone = r.board.free? := rfl
  rw [register, if_neg (by rw [h]; decide), hfree]
  by_cases hz : id = 0
  · simp only [if_pos hz]
    cases hs : r.board.free? with
    | none => exact ⟨h, .refused _⟩
    | some slot =>
      cases he : r.entries.find? (·.taken = 0) with
      | none => exact ⟨h, .refused _⟩
      | some e =>
        have hm : e.id ∈ r.board.ids :=
          List.mem_map.2 ⟨_, List.mem_map.2 ⟨e, List.mem_of_find?_eq_some he, rfl⟩, rfl⟩
        refine ⟨h, ?_⟩
        rw [board_bind]
        exact .given hz (Board.getElem?_of_free? hs) hm
  · simp only [if_neg hz]
    cases ho : r.slots.findIdx? (· = some ⟨id, l⟩) with
    | some slot =>
      obtain ⟨hlt, hx, -⟩ := List.findIdx?_eq_some_iff_getElem.1 ho
      have hm := List.getElem_mem hlt
      rw [of_decide_eq_true hx] at hm
      exact ⟨h, .kept hz hm slot⟩
    | none =>
      cases hs : r.board.free? with
      | none => exact ⟨h, .refused _⟩
      | some slot =>
        cases hr : r.allocate id with
        | none => exact ⟨h, .refused _⟩
        | some r' =>
          have ha : r.board.allocate id = some r'.board := by
            rw [← board_allocate, hr, Option.map_some]
          refine ⟨(locked_of_allocate hr).trans h, ?_⟩
          rw [board_bind]
          exact .named hz (Board.getElem?_of_free? hs) ha

/-- Between two uses, however many slots there are: the lock is free, and the board sound. -/
theorem sound_use (hl : r.locked = false) (hb : r.board.Sound) (u : Use L V α) :
    (r.use u).1.locked = false ∧ (r.use u).1.board.Sound := by
  cases hu : u.isRegister with
  | false =>
    obtain ⟨hl', he⟩ := use_eq_board hl hu
    have hs := hb.use hu
    rw [he] at hs
    exact ⟨hl', hs⟩
  | true =>
    cases u with
    | register l id =>
      obtain ⟨hl', hr⟩ := registered hl l id
      exact ⟨hl', hb.registered hr⟩
    | _ => cases hu

end Registry

end GimbalLink
