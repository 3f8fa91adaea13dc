/-
  The listener registry.

  Values that arrive on the bus are kept by the id of their source and handed to
  every listener bound to that id. There is room for a fixed number of ids and of
  bindings; an id once seen is never given up.

  The registry is shared, and its lock is only ever tried: a call that finds it held
  is refused as busy. The lock is held while a listener or the visitor of a value
  runs, and such a callback can itself call the registry. So a callback is a function
  on the registry, as it stands while the lock is held, and on the world around it.

  What is proved: a call under a held lock is refused and changes nothing
  (`register_of_locked`, `remove_of_locked`, `visit_of_locked`, `notify_of_locked`,
  `publish_of_locked`).
-/
namespace GimbalLink

inductive RegistryError where
  /-- The lock is held. -/
  | busy
  /-- No room for another binding or another id. -/
  | full
  /-- The id was never seen, or every id has a listener. -/
  | unknownId
  /-- The listener is bound to nothing. -/
  | notRegistered
  deriving DecidableEq, Repr

/-- What is kept for an id. -/
structure Entry (V : Type) where
  id : UInt8
  /-- How many listeners are bound to the id. -/
  taken : UInt8
  /-- The value stored last. -/
  value : V
  deriving DecidableEq

structure Binding (L : Type) where
  id : UInt8
  listener : L
  deriving DecidableEq

structure Registry (L V : Type) where
  /-- How many ids there is room for. -/
  idRoom : Nat
  /-- Ids in the order in which they were first seen. -/
  entries : List (Entry V)
  /-- One place for each possible binding. -/
  slots : List (Option (Binding L))
  /-- The lock is held. -/
  locked : Bool
  deriving DecidableEq

/-- What runs while the lock is held, on the registry and the world around it. -/
abbrev Callback (L V σ α : Type) := Registry L V → σ → Registry L V × σ × α

namespace Registry

variable {L V σ α : Type}

def new (idRoom slotRoom : Nat) : Registry L V := ⟨idRoom, [], List.replicate slotRoom none, false⟩

def lock (r : Registry L V) : Registry L V := { r with locked := true }

def unlock (r : Registry L V) : Registry L V := { r with locked := false }

/-! ## The table -/

/-- A count of listeners goes up, as far as a byte goes. -/
def countUp (n : UInt8) : UInt8 := if n = 255 then 255 else n + 1

def countDown (n : UInt8) : UInt8 := if n = 0 then 0 else n - 1

def entry? (r : Registry L V) (id : UInt8) : Option (Entry V) := r.entries.find? (·.id = id)

/-- Changes what is kept for an id. -/
def mapEntry (r : Registry L V) (id : UInt8) (f : Entry V → Entry V) : Registry L V :=
  { r with entries := r.entries.map fun e => if e.id = id then f e else e }

/-- Makes sure that the id is kept, with a first value if it is new. -/
def allocate [Inhabited V] (r : Registry L V) (id : UInt8) : Option (Registry L V) :=
  if (r.entry? id).isSome then some r
  else if r.entries.length < r.idRoom then
    some { r with entries := r.entries ++ [⟨id, 0, default⟩] }
  else none

def store (r : Registry L V) (id : UInt8) (value : V) : Registry L V :=
  r.mapEntry id fun e => { e with value }

/-- The bindings, in the order of their slots. -/
def bindings (r : Registry L V) : List (Binding L) := r.slots.filterMap id

/-- The listeners bound to an id, in the order of their slots. -/
def listenersOf (r : Registry L V) (id : UInt8) : List L :=
  (r.bindings.filter (·.id = id)).map (·.listener)

/-- Puts a binding into a slot. -/
def bind (r : Registry L V) (slot : Nat) (id : UInt8) (listener : L) : Registry L V :=
  { r.mapEntry id fun e => { e with taken := countUp e.taken } with
    slots := r.slots.set slot (some ⟨id, listener⟩) }

/-- Empties the slots of a listener. -/
def unbind [DecidableEq L] (r : Registry L V) (listener : L) : Registry L V :=
  let freed := r.bindings.filter (·.listener = listener)
  let r := freed.foldl (fun r b => r.mapEntry b.id fun e => { e with taken := countDown e.taken }) r
  { r with slots := r.slots.map (Option.filter (·.listener ≠ listener)) }

/-! ## Binding -/

/-- Binds a listener to an id and tells its slot, counted from one. The id zero
stands for the first one without a listener. A binding that is there already keeps
its slot; a slot is looked for before an id, so a full table takes no new id. -/
def register [DecidableEq L] [Inhabited V] (r : Registry L V) (listener : L) (id : UInt8) :
    Registry L V × Except RegistryError Nat :=
  if r.locked then (r, .error .busy)
  else
    let existing := if id = 0 then none else r.slots.findIdx? (· = some ⟨id, listener⟩)
    match existing, r.slots.findIdx? Option.isNone with
    | some slot, _ => (r, .ok (slot + 1))
    | none, none => (r, .error .full)
    | none, some slot =>
      if id = 0 then
        match r.entries.find? (·.taken = 0) with
        | none => (r, .error .unknownId)
        | some e => (r.bind slot e.id listener, .ok (slot + 1))
      else
        match r.allocate id with
        | none => (r, .error .full)
        | some r => (r.bind slot id listener, .ok (slot + 1))

/-- Frees every slot of a listener and tells how many there were. -/
def remove [DecidableEq L] (r : Registry L V) (listener : L) :
    Registry L V × Except RegistryError Nat :=
  if r.locked then (r, .error .busy)
  else
    match (r.bindings.filter (·.listener = listener)).length with
    | 0 => (r, .error .notRegistered)
    | n + 1 => (r.unbind listener, .ok (n + 1))

/-- How many slots are taken; none while the lock is held. -/
def listenerCount (r : Registry L V) : Option Nat :=
  if r.locked then none else some r.bindings.length

/-! ## Values -/

/-- Runs a visitor on the value of an id, which is taken up if it is new. The visitor
answers and leaves a value. -/
def visit [Inhabited V] (r : Registry L V) (world : σ) (id : UInt8)
    (visitor : V → Callback L V σ (α × V)) : Registry L V × σ × Except RegistryError α :=
  if r.locked then (r, world, .error .busy)
  else
    match r.allocate id with
    | none => (r, world, .error .full)
    | some r =>
      let value := ((r.entry? id).map (·.value)).getD default
      let (r, world, answer, value) := visitor value r.lock world
      ((r.store id value).unlock, world, .ok answer)

/-- Hands a value to listeners, one after the other. -/
def handAll (handle : L → V → Callback L V σ Unit) (value : V) :
    List L → Registry L V → σ → Registry L V × σ
  | [], r, world => (r, world)
  | l :: rest, r, world =>
    let (r, world, ()) := handle l value r world
    handAll handle value rest r world

/-- Hands the value of an id to the listeners bound to it, and tells how many. -/
def notify (r : Registry L V) (world : σ) (id : UInt8)
    (handle : L → V → Callback L V σ Unit) : Registry L V × σ × Except RegistryError Nat :=
  if r.locked then (r, world, .error .busy)
  else
    match r.entry? id with
    | none => (r, world, .error .unknownId)
    | some e =>
      let listeners := r.listenersOf id
      let (r, world) := handAll handle e.value listeners r.lock world
      (r.unlock, world, .ok listeners.length)

/-- Stores a value and hands it out. -/
def publish [Inhabited V] (r : Registry L V) (world : σ) (id : UInt8) (value : V)
    (handle : L → V → Callback L V σ Unit) : Registry L V × σ × Except RegistryError Nat :=
  match r.visit world id fun _ r world => (r, world, (), value) with
  | (r, world, .error e) => (r, world, .error e)
  | (r, world, .ok ()) => r.notify world id handle

/-! ## Under a held lock -/

section
variable [Inhabited V] {r : Registry L V} (world : σ) (h : r.locked = true)
include h

theorem register_of_locked [DecidableEq L] (l : L) (id : UInt8) :
    r.register l id = (r, .error .busy) := if_pos h

omit [Inhabited V] in
theorem remove_of_locked [DecidableEq L] (l : L) : r.remove l = (r, .error .busy) := if_pos h

theorem visit_of_locked (id : UInt8) (visitor : V → Callback L V σ (α × V)) :
    r.visit world id visitor = (r, world, .error .busy) := if_pos h

omit [Inhabited V] in
theorem notify_of_locked (id : UInt8) (handle : L → V → Callback L V σ Unit) :
    r.notify world id handle = (r, world, .error .busy) := if_pos h

theorem publish_of_locked (id : UInt8) (value : V) (handle : L → V → Callback L V σ Unit) :
    r.publish world id value handle = (r, world, .error .busy) := by
  rw [publish, visit_of_locked world h]

end

end Registry

end GimbalLink
