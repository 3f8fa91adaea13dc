import GimbalLink.Listeners.Call
/-
  A board: what a listener registry is to its users.

  A board has a list of ids, each with the value stored last for it, and a row of slots.
  It keeps no counts and has no lock. Whether an id has a listener is read off the slots.

  A `Use` is one call of the registry, from outside and with the lock free; its visitor is
  any function of the value. An outcome is the reply and what the listeners were handed
  meanwhile. The board has an outcome for each use (`Board.use`), and so has the registry
  when its listeners take down what they are handed (`Registry.use`).
-/
namespace GimbalLink

/-- One call of a registry, from outside. -/
inductive Use (L V α : Type) where
  | register (listener : L) (id : UInt8)
  | remove (listener : L)
  /-- Runs a function on the value of an id; it answers and leaves a value. -/
  | visit (id : UInt8) (f : V → α × V)
  | notify (id : UInt8)
  | publish (id : UInt8) (value : V)
  | count

/-- The use binds a listener. -/
def Use.isRegister {L V α : Type} : Use L V α → Bool
  | .register .. => true
  | _ => false

structure Board (L V : Type) where
  /-- How many ids there is room for. -/
  idRoom : Nat
  /-- Ids in the order in which they were first seen, each with its value. -/
  known : List (UInt8 × V)
  slots : List (Option (Binding L))

namespace Board

variable {L V α : Type}

def new (idRoom slotRoom : Nat) : Board L V := ⟨idRoom, [], List.replicate slotRoom none⟩

def ids (b : Board L V) : List UInt8 := b.known.map Prod.fst

/-- How many slots are bound to an id. -/
def boundTo (b : Board L V) (id : UInt8) : Nat := b.slots.countP (Option.any (·.id = id))

/-- How many slots hold a listener. -/
def heldBy [DecidableEq L] (b : Board L V) (l : L) : Nat :=
  b.slots.countP (Option.any (·.listener = l))

/-- The first id to which no slot is bound. -/
def unheard? (b : Board L V) : Option UInt8 := b.ids.find? (b.boundTo · = 0)

/-- The slot of a binding that is there already. -/
def slotOf? [DecidableEq L] (b : Board L V) (x : Binding L) : Option Nat :=
  b.slots.findIdx? (· = some x)

/-- The lowest empty slot. -/
def free? (b : Board L V) : Option Nat := b.slots.findIdx? Option.isNone

def fill (b : Board L V) (slot : Nat) (x : Binding L) : Board L V :=
  { b with slots := b.slots.set slot (some x) }

/-- Empties the slots of a listener. -/
def clear [DecidableEq L] (b : Board L V) (l : L) : Board L V :=
  { b with slots := b.slots.map fun s => if s.any (·.listener = l) then none else s }

/-- Puts a new id at the end of the list, if there is room. -/
def allocate [Inhabited V] (b : Board L V) (id : UInt8) : Option (Board L V) :=
  if id ∈ b.ids then some b
  else if b.known.length < b.idRoom then some { b with known := b.known ++ [(id, default)] }
  else none

def value? (b : Board L V) (id : UInt8) : Option V := b.known.lookup id

def store (b : Board L V) (id : UInt8) (value : V) : Board L V :=
  { b with known := b.known.map fun p => if p.1 = id then (id, value) else p }

/-- Who is handed a value of an id: each slot bound to it, in the order of the slots. -/
def notices (b : Board L V) (id : UInt8) (value : V) : List (L × V) :=
  b.slots.filterMap fun s => (s.filter (·.id = id)).map fun x => (x.listener, value)

/-- A listener that names an id keeps the slot it has for it, or else takes the lowest
empty one; one that names none takes the lowest empty one and the first unheard id. -/
def register [DecidableEq L] [Inhabited V] (b : Board L V) (l : L) (id : UInt8) :
    Board L V × Except RegistryError Nat :=
  if id = 0 then
    match b.free?, b.unheard? with
    | none, _ => (b, .error .full)
    | some _, none => (b, .error .unknownId)
    | some slot, some id => (b.fill slot ⟨id, l⟩, .ok (slot + 1))
  else
    match b.slotOf? ⟨id, l⟩ with
    | some slot => (b, .ok (slot + 1))
    | none =>
      match b.free?, b.allocate id with
      | some slot, some b => (b.fill slot ⟨id, l⟩, .ok (slot + 1))
      | _, _ => (b, .error .full)

def remove [DecidableEq L] (b : Board L V) (l : L) : Board L V × Except RegistryError Nat :=
  if b.heldBy l = 0 then (b, .error .notRegistered) else (b.clear l, .ok (b.heldBy l))

def visit [Inhabited V] (b : Board L V) (id : UInt8) (f : V → α × V) :
    Board L V × Except RegistryError α :=
  match b.allocate id with
  | none => (b, .error .full)
  | some b =>
    let (answer, value) := f ((b.value? id).getD default)
    (b.store id value, .ok answer)

def notify (b : Board L V) (id : UInt8) : Except RegistryError Nat × List (L × V) :=
  match b.value? id with
  | none => (.error .unknownId, [])
  | some value => (.ok (b.notices id value).length, b.notices id value)

def publish [Inhabited V] (b : Board L V) (id : UInt8) (value : V) :
    Board L V × Except RegistryError Nat × List (L × V) :=
  match b.allocate id with
  | none => (b, .error .full, [])
  | some b => (b.store id value, .ok (b.notices id value).length, b.notices id value)

def use [DecidableEq L] [Inhabited V] (b : Board L V) :
    Use L V α → Board L V × Reply α × List (L × V)
  | .register l id => ((b.register l id).1, .number (b.register l id).2, [])
  | .remove l => ((b.remove l).1, .number (b.remove l).2, [])
  | .visit id f => ((b.visit id f).1, .value (b.visit id f).2, [])
  | .notify id => (b, .number (b.notify id).1, (b.notify id).2)
  | .publish id value =>
    ((b.publish id value).1, .number (b.publish id value).2.1, (b.publish id value).2.2)
  | .count => (b, .count (some (b.slots.countP Option.isSome)), [])

/-- The ids are distinct and have room, and no slot is bound to an id that is not there. -/
structure Sound (b : Board L V) : Prop where
  nodup : b.ids.Nodup
  length_le : b.ids.length ≤ b.idRoom
  bound_mem : ∀ x, some x ∈ b.slots → x.id ∈ b.ids

/-! ## What the operations of a board keep -/

variable {b : Board L V} {slot : Nat}

theorem boundTo_le (b : Board L V) (id : UInt8) : b.boundTo id ≤ b.slots.length :=
  List.countP_le_length

theorem boundTo_fill (h : b.slots[slot]? = some none) (x : Binding L) (id : UInt8) :
    (b.fill slot x).boundTo id = b.boundTo id + if x.id = id then 1 else 0 := by
  obtain ⟨hlt, hs⟩ := List.getElem?_eq_some_iff.1 h
  show (b.slots.set slot (some x)).countP _ = _
  rw [List.countP_set hlt, hs]
  simp [boundTo]

theorem getElem?_of_free? (h : b.free? = some slot) : b.slots[slot]? = some none := by
  obtain ⟨hlt, hn, -⟩ := List.findIdx?_eq_some_iff_getElem.1 h
  exact List.getElem?_eq_some_iff.2 ⟨hlt, Option.isNone_iff_eq_none.1 hn⟩

theorem Sound.boundTo_of_notMem (hb : b.Sound) {id : UInt8} (h : id ∉ b.ids) :
    b.boundTo id = 0 := by
  apply List.countP_eq_zero.2
  intro s hs hi
  cases s with
  | none => cases hi
  | some x =>
    obtain rfl := of_decide_eq_true hi
    exact h (hb.bound_mem x hs)

theorem Sound.fill (hb : b.Sound) {x : Binding L} (hx : x.id ∈ b.ids) (slot : Nat) :
    (b.fill slot x).Sound := by
  refine ⟨hb.nodup, hb.length_le, fun y hy => ?_⟩
  obtain hy | hy := List.mem_or_eq_of_mem_set hy
  · exact hb.bound_mem y hy
  · cases hy
    exact hx

theorem Sound.clear [DecidableEq L] (hb : b.Sound) (l : L) : (b.clear l).Sound := by
  refine ⟨hb.nodup, hb.length_le, fun x hx => ?_⟩
  obtain ⟨s, hs, he⟩ := List.mem_map.1 hx
  split at he
  · cases he
  · subst he
    exact hb.bound_mem x hs

theorem ids_store (b : Board L V) (id : UInt8) (value : V) : (b.store id value).ids = b.ids := by
  simp only [ids, store, List.map_map]
  apply List.map_congr_left
  intro p _
  show (if p.1 = id then (id, value) else p).1 = p.1
  split
  · next h => exact h.symm
  · rfl

theorem Sound.store (hb : b.Sound) (id : UInt8) (value : V) : (b.store id value).Sound :=
  ⟨(ids_store b id value).symm ▸ hb.nodup, (ids_store b id value).symm ▸ hb.length_le,
    fun x hx => (ids_store b id value).symm ▸ hb.bound_mem x hx⟩

theorem allocate_cases [Inhabited V] {b' : Board L V} {id : UInt8} (h : b.allocate id = some b') :
    id ∈ b.ids ∧ b' = b ∨
      id ∉ b.ids ∧ b.known.length < b.idRoom ∧
        b' = { b with known := b.known ++ [(id, default)] } := by
  rw [allocate] at h
  split at h
  · next hm => exact .inl ⟨hm, (Option.some.inj h).symm⟩
  · next hm =>
    split at h
    · next hl => exact .inr ⟨hm, hl, (Option.some.inj h).symm⟩
    · cases h

theorem slots_of_allocate [Inhabited V] {b' : Board L V} {id : UInt8}
    (h : b.allocate id = some b') : b'.slots = b.slots := by
  obtain ⟨-, rfl⟩ | ⟨-, -, rfl⟩ := allocate_cases h <;> rfl

theorem mem_ids_of_allocate [Inhabited V] {b' : Board L V} {id : UInt8}
    (h : b.allocate id = some b') : id ∈ b'.ids := by
  obtain ⟨hm, rfl⟩ | ⟨-, -, rfl⟩ := allocate_cases h
  · exact hm
  · simp [ids]

theorem Sound.allocate [Inhabited V] (hb : b.Sound) {b' : Board L V} {id : UInt8}
    (h : b.allocate id = some b') : b'.Sound := by
  obtain ⟨-, rfl⟩ | ⟨hm, hl, rfl⟩ := allocate_cases h
  · exact hb
  · have hi : ids { b with known := b.known ++ [(id, default)] } = b.ids ++ [id] :=
      List.map_append
    refine ⟨?_, ?_, ?_⟩
    · rw [hi]
      refine List.nodup_append.2 ⟨hb.nodup, List.pairwise_singleton _ id, ?_⟩
      intro a ha c hc hac
      exact hm (List.mem_singleton.1 hc ▸ hac ▸ ha)
    · rw [hi, List.length_append, ids, List.length_map]
      exact hl
    · intro x hx
      rw [hi]
      exact List.mem_append_left _ (hb.bound_mem x hx)

theorem value?_store {id : UInt8} (h : id ∈ b.ids) (value : V) :
    (b.store id value).value? id = some value := by
  rw [ids] at h
  rw [value?, store]
  generalize b.known = known at h ⊢
  induction known with
  | nil => cases h
  | cons p rest ih =>
    rw [List.map_cons, List.lookup_cons]
    by_cases hp : p.1 = id
    · simp [hp]
    · have hb : (id == p.1) = false := beq_eq_false_iff_ne.2 (Ne.symm hp)
      obtain h | h := List.mem_cons.1 h
      · exact absurd h.symm hp
      · rw [if_neg hp, hb]
        exact ih h

theorem publish_ne_unknownId [Inhabited V] (b : Board L V) (id : UInt8) (value : V) :
    (b.publish id value).2.1 ≠ .error .unknownId := by
  rw [publish]
  cases b.allocate id with
  | none => simp
  | some b' => simp

end Board

namespace Registry

variable {L V α : Type}

/-- A listener that takes down what it is handed. -/
def hear : L → V → Callback L V (List (L × V)) Unit := fun l value r heard =>
  (r, heard ++ [(l, value)], ())

def use [DecidableEq L] [Inhabited V] (r : Registry L V) :
    Use L V α → Registry L V × Reply α × List (L × V)
  | .register l id =>
    let (r, result) := r.register l id
    (r, .number result, [])
  | .remove l =>
    let (r, result) := r.remove l
    (r, .number result, [])
  | .visit id f =>
    let (r, heard, result) := r.visit [] id fun value r heard => (r, heard, f value)
    (r, .value result, heard)
  | .notify id =>
    let (r, heard, result) := r.notify [] id hear
    (r, .number result, heard)
  | .publish id value =>
    let (r, heard, result) := r.publish [] id value hear
    (r, .number result, heard)
  | .count => (r, .count r.listenerCount, [])

/-- What a registry shows of itself. -/
def board (r : Registry L V) : Board L V :=
  ⟨r.idRoom, r.entries.map fun e => (e.id, e.value), r.slots⟩

end Registry

end GimbalLink
