import GimbalLink.Proofs.Listeners.Reentrancy
/-
  The two tables of a registry.

  A registry keeps its ids in one table and its bindings in another, and with each id a count
  of the slots bound to it. The count could be read off the slots; that it is right after every
  history is what the counting by hand in `register` and `remove` has to be held to. A count is
  a byte that stops at either end, so it is right only because it never gets there: it goes up
  where a slot was empty, and down where one was full.

  What is proved:
    1. `Board.use_keeps`: a use keeps the room, and gives no binding a second slot.
    2. `Registry.Consistent.taken_ne_last`, `Registry.Consistent.taken_ne_zero`: no count is
       at its end when it is moved.
    3. `Registry.orderly_serveAll`: whatever is called, also from inside of calls, the tables
       are in order.
-/
namespace GimbalLink

variable {L V σ α : Type}

namespace Board

/-- No binding has two slots. -/
def Single (b : Board L V) : Prop :=
  ∀ (i j : Nat) (x : Binding L),
    b.slots[i]? = some (some x) → b.slots[j]? = some (some x) → i = j

/-- What a use keeps of a board: its room, and that no binding has two slots. -/
structure Keeps (b b' : Board L V) : Prop where
  idRoom_eq : b'.idRoom = b.idRoom
  length_eq : b'.slots.length = b.slots.length
  single : b.Single → b'.Single

variable {b b' : Board L V}

theorem Keeps.refl (b : Board L V) : b.Keeps b := ⟨rfl, rfl, id⟩

theorem Keeps.trans {b'' : Board L V} (h : b.Keeps b') (h' : b'.Keeps b'') : b.Keeps b'' :=
  ⟨h'.idRoom_eq.trans h.idRoom_eq, h'.length_eq.trans h.length_eq, fun hs => h'.single (h.single hs)⟩

theorem keeps_store (b : Board L V) (id : UInt8) (value : V) : b.Keeps (b.store id value) :=
  ⟨rfl, rfl, fun hs => hs⟩

theorem keeps_allocate [Inhabited V] {id : UInt8} (h : b.allocate id = some b') :
    b.Keeps b' := by
  obtain ⟨-, rfl⟩ | ⟨-, -, rfl⟩ := allocate_cases h <;> exact ⟨rfl, rfl, fun hs => hs⟩

/-- A binding that has no slot gets one. -/
theorem keeps_fill {x : Binding L} (hx : some x ∉ b.slots) (slot : Nat) :
    b.Keeps (b.fill slot x) := by
  refine ⟨rfl, List.length_set, fun hs i j y hi hj => ?_⟩
  have old {k : Nat} (hk : (b.fill slot x).slots[k]? = some (some y)) (hne : k ≠ slot) :
      b.slots[k]? = some (some y) := by
    rw [fill, List.getElem?_set_ne (Ne.symm hne)] at hk
    exact hk
  have new (hk : (b.fill slot x).slots[slot]? = some (some y)) : y = x := by
    rw [fill, List.getElem?_set_self'] at hk
    obtain ⟨s, -, hk⟩ := Option.map_eq_some_iff.1 hk
    exact (Option.some.inj hk).symm
  by_cases hi' : i = slot
  · by_cases hj' : j = slot
    · rw [hi', hj']
    · -- The other slot is an old one, and would hold the new binding already.
      obtain rfl := new (hi' ▸ hi)
      exact absurd (List.mem_of_getElem? (old hj hj')) hx
  · by_cases hj' : j = slot
    · obtain rfl := new (hj' ▸ hj)
      exact absurd (List.mem_of_getElem? (old hi hi')) hx
    · exact hs i j y (old hi hi') (old hj hj')

theorem notMem_of_unheard {id : UInt8} (h : b.unheard? = some id) (l : L) :
    some ⟨id, l⟩ ∉ b.slots := by
  rw [unheard?] at h
  have hz : b.boundTo id = 0 := by simpa using List.find?_some h
  intro hm
  exact List.countP_eq_zero.1 hz _ hm (decide_eq_true rfl)

section
variable [DecidableEq L]

theorem keeps_clear (b : Board L V) (l : L) : b.Keeps (b.clear l) := by
  refine ⟨rfl, List.length_map _, fun hs i j x hi hj => ?_⟩
  have old {k : Nat} (hk : (b.clear l).slots[k]? = some (some x)) :
      b.slots[k]? = some (some x) := by
    rw [clear, List.getElem?_map] at hk
    obtain ⟨s, hs, he⟩ := Option.map_eq_some_iff.1 hk
    split at he
    · cases he
    · exact he ▸ hs
  exact hs i j x (old hi) (old hj)

theorem notMem_of_slotOf {x : Binding L} (h : b.slotOf? x = none) : some x ∉ b.slots := by
  intro hm
  have hn := List.findIdx?_eq_none_iff.1 h _ hm
  simp at hn

variable [Inhabited V]

theorem register_keeps (b : Board L V) (l : L) (id : UInt8) : b.Keeps (b.register l id).1 := by
  rw [register]
  split
  · split
    · exact .refl b
    · exact .refl b
    · next hu => exact keeps_fill (notMem_of_unheard hu l) _
  · split
    · exact .refl b
    · next ho =>
      split
      · next b' hs ha =>
        refine (keeps_allocate ha).trans (keeps_fill ?_ _)
        rw [slots_of_allocate ha]
        exact notMem_of_slotOf ho
      · exact .refl b

theorem use_keeps (b : Board L V) (u : Use L V α) : b.Keeps (b.use u).1 := by
  cases u with
  | register l id => exact b.register_keeps l id
  | remove l =>
    simp only [use, remove]
    split
    · exact .refl b
    · exact b.keeps_clear l
  | visit id f =>
    simp only [use, visit]
    cases ha : b.allocate id with
    | none => exact .refl b
    | some b' => exact (keeps_allocate ha).trans (b'.keeps_store id _)
  | notify id => exact .refl b
  | publish id value =>
    simp only [use, publish]
    cases ha : b.allocate id with
    | none => exact .refl b
    | some b' => exact (keeps_allocate ha).trans (b'.keeps_store id value)
  | count => exact .refl b

end

end Board

namespace Registry

variable {r : Registry L V}

/-! ## Counts that move -/

/-- While a slot is empty, no count is at its upper end. -/
theorem Consistent.taken_ne_last (h : r.Consistent) (hn : none ∈ r.slots) :
    ∀ e ∈ r.entries, e.taken ≠ 255 := by
  intro e he hlast
  have hlt : r.board.boundTo e.id < r.slots.length := by
    refine Nat.lt_of_le_of_ne (Board.boundTo_le _ _) fun hall => ?_
    exact nomatch List.countP_eq_length.1 hall none hn
  have hle := h.room_le
  rw [← h.taken_eq e he, hlast] at hlt
  exact absurd (Nat.lt_of_lt_of_le hlt hle) (by decide)

section
variable [DecidableEq L]

/-- While the slots of a listener are emptied, no count that goes down is at its lower end. -/
theorem Consistent.taken_ne_zero (h : r.Consistent) {l : L} {freed rest : List (Binding L)}
    {x : Binding L} (hx : r.bindings.filter (·.listener = l) = freed ++ x :: rest) :
    ∀ e ∈ (r.lower freed).entries, e.id = x.id → e.taken ≠ 0 := by
  intro e he hid hzero
  -- What is left of a count: the slots that are kept, and those that are still to be emptied.
  let left (id : UInt8) : Nat := (r.board.clear l).boundTo id + (x :: rest).countP (·.id = id)
  have hleft : e.taken.toNat = left e.id := by
    refine taken_lower left freed (fun e he => ?_) e he
    rw [h.taken_eq e he, boundTo_clear r l e.id, hx, List.countP_append]
    show _ = (r.board.clear l).boundTo e.id + (x :: rest).countP _ + freed.countP _
    omega
  have hpos : 0 < (x :: rest).countP (·.id = e.id) :=
    List.countP_pos_iff.2 ⟨x, List.mem_cons_self, decide_eq_true hid.symm⟩
  rw [hzero] at hleft
  have hsum : 0 = (r.board.clear l).boundTo e.id + (x :: rest).countP (·.id = e.id) := hleft
  omega

/-! ## Errands -/

/-- The tables of a registry are in order. -/
structure Orderly (idRoom slotRoom : Nat) (r : Registry L V) : Prop where
  /-- The ids are distinct. -/
  nodup : (r.entries.map Entry.id).Nodup
  /-- There are no more of them than there is room for. -/
  length_le : r.entries.length ≤ idRoom
  slots_length : r.slots.length = slotRoom
  /-- The id of a slot that is bound is kept. -/
  bound_mem : ∀ x, some x ∈ r.slots → x.id ∈ r.entries.map Entry.id
  /-- No binding has two slots. -/
  single : ∀ (i j : Nat) (x : Binding L),
    r.slots[i]? = some (some x) → r.slots[j]? = some (some x) → i = j
  /-- The count of an id is the number of the slots bound to it. -/
  taken_eq : ∀ e ∈ r.entries, e.taken.toNat = r.slots.countP (Option.any (·.id = e.id))
  /-- Where a slot can be filled, a count can go up. -/
  taken_ne_last : none ∈ r.slots → ∀ e ∈ r.entries, e.taken ≠ 255
  /-- Where the slots of a listener are emptied, one after the other, the counts can go down. -/
  taken_ne_zero : ∀ l freed x rest, r.bindings.filter (·.listener = l) = freed ++ x :: rest →
    ∀ e ∈ (r.lower freed).entries, e.id = x.id → e.taken ≠ 0

variable [Inhabited V]

/-- What errands leave of a registry, one after the other, each in a world of its own. -/
def serveAll (r : Registry L V) (errands : List (σ × Errand L V σ α)) : Registry L V :=
  errands.foldl (fun r e => (request e.2.request r ⟨e.1, [], []⟩).1) r

/-- An errand leaves what the use leaves in which nobody calls from inside. -/
theorem request_registry (r : Registry L V) (world : σ) (e : Errand L V σ α) :
    (request e.request r ⟨world, [], []⟩).1 = (r.use (e.quiet world)).1 := by
  have hv : (⟨world, [], []⟩ : Scene L V σ).Vain := nofun
  cases e with
  | visit id s => exact (r.visit_scripted id s hv).registry_eq
  | notify id s => exact (r.notify_scripted id s hv).registry_eq
  | publish id value s => exact (r.publish_scripted id value s hv).registry_eq
  | _ => rfl

theorem serveAll_keeps (errands : List (σ × Errand L V σ α)) (h : r.Consistent) :
    (r.serveAll errands).Consistent ∧ r.board.Keeps (r.serveAll errands).board := by
  induction errands generalizing r with
  | nil => exact ⟨h, .refl _⟩
  | cons e rest ih =>
    obtain ⟨hc, hb⟩ := use_refines h (e.2.quiet e.1)
    have hk := r.board.use_keeps (e.2.quiet e.1)
    rw [hb] at hk
    rw [serveAll, List.foldl_cons, request_registry]
    obtain ⟨hrest, hkeeps⟩ := ih hc
    exact ⟨hrest, hk.trans hkeeps⟩

/-- Whatever is called, and whatever is called from inside of that, the tables are in order, and
no count stops at an end. -/
theorem orderly_serveAll (idRoom : Nat) {slotRoom : Nat} (h : slotRoom ≤ 255)
    (errands : List (σ × Errand L V σ α)) :
    Orderly idRoom slotRoom ((new idRoom slotRoom : Registry L V).serveAll errands) := by
  obtain ⟨hc, hk⟩ := serveAll_keeps errands (consistent_new (L := L) (V := V) idRoom h)
  generalize (new idRoom slotRoom : Registry L V).serveAll errands = r at hc hk
  have hids : r.board.ids = r.entries.map Entry.id := List.map_map
  refine ⟨hids ▸ hc.sound.nodup, ?_, ?_, hids ▸ hc.sound.bound_mem, ?_, hc.taken_eq,
    hc.taken_ne_last, fun l freed x rest hx => hc.taken_ne_zero hx⟩
  · have hle := hc.sound.length_le
    rw [hids, List.length_map, hk.idRoom_eq] at hle
    exact hle
  · exact hk.length_eq.trans List.length_replicate
  · refine hk.single fun i j x hi hj => ?_
    cases List.eq_of_mem_replicate (List.mem_of_getElem? hi)

/-- A listener that is bound twice is removed, and another takes the id that is unheard then;
meanwhile everyone meddles. -/
def crowdedErrands : List (Nat × Errand Nat Nat Nat Nat) :=
  [(0, .register 1 71), (0, .register 2 71), (0, .register 1 80), (0, .publish 71 5 meddle),
    (0, .remove 1), (0, .register 2 0), (0, .visit 90 fun value world => .finish world (value, 1))]

theorem orderly_crowdedErrands :
    3 ≤ 255 ∧
      ((new 2 3 : Registry Nat Nat).serveAll crowdedErrands).entries = [⟨71, 1, 5⟩, ⟨80, 1, 0⟩] ∧
      Orderly 2 3 ((new 2 3 : Registry Nat Nat).serveAll crowdedErrands) :=
  ⟨by decide, by decide, orderly_serveAll 2 (by decide) crowdedErrands⟩

end

end Registry

end GimbalLink
