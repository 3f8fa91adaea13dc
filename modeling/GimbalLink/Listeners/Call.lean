import GimbalLink.Listeners.Registry
/-
  Calls on a registry, and listeners that call back.

  A `Call` is one use of the registry with everything it needs. A listener or a
  visitor that wants to use the registry while it is being notified makes such calls;
  the lock is held then, and what it gets is the answer of a registry that is busy.
-/
namespace GimbalLink

/-- One use of a registry. -/
inductive Call (L V : Type) where
  | register (listener : L) (id : UInt8)
  | remove (listener : L)
  /-- Looks at the value of an id. -/
  | read (id : UInt8)
  /-- Stores a value without handing it out, and looks at the one before. -/
  | swap (id : UInt8) (value : V)
  | notify (id : UInt8)
  | publish (id : UInt8) (value : V)
  | count
  deriving DecidableEq

/-- What a call answers. -/
inductive Reply (V : Type) where
  /-- A slot, or a number of slots or listeners. -/
  | number (result : Except RegistryError Nat)
  | value (result : Except RegistryError V)
  /-- The number of bindings, unless the lock is held. -/
  | count (bindings : Option Nat)

namespace Registry

variable {L V σ : Type} [DecidableEq L] [Inhabited V]

def read (r : Registry L V) (world : σ) (id : UInt8) :
    Registry L V × σ × Except RegistryError V :=
  r.visit world id fun value r world => (r, world, value, value)

def swap (r : Registry L V) (world : σ) (id : UInt8) (value : V) :
    Registry L V × σ × Except RegistryError V :=
  r.visit world id fun old r world => (r, world, old, value)

/-- Makes one call; `handle` is what a listener does with a value. -/
def perform (handle : L → V → Callback L V σ Unit) (c : Call L V) : Callback L V σ (Reply V) :=
  fun r world =>
    match c with
    | .register l id =>
      let (r, result) := r.register l id
      (r, world, .number result)
    | .remove l =>
      let (r, result) := r.remove l
      (r, world, .number result)
    | .read id =>
      let (r, world, result) := r.read world id
      (r, world, .value result)
    | .swap id value =>
      let (r, world, result) := r.swap world id value
      (r, world, .value result)
    | .notify id =>
      let (r, world, result) := r.notify world id handle
      (r, world, .number result)
    | .publish id value =>
      let (r, world, result) := r.publish world id value handle
      (r, world, .number result)
    | .count => (r, world, .count r.listenerCount)

/-- A listener that does nothing with a value. -/
def idle : L → V → Callback L V σ Unit := fun _ _ r world => (r, world, ())

/-- Makes several calls, one after the other. -/
def performAll (handle : L → V → Callback L V σ Unit) :
    List (Call L V) → Callback L V σ (List (Reply V))
  | [], r, world => (r, world, [])
  | c :: rest, r, world =>
    let (r, world, reply) := perform handle c r world
    let (r, world, replies) := performAll handle rest r world
    (r, world, reply :: replies)

/-- Visits the value of an id and makes calls while the lock is held. -/
def readDuring (r : Registry L V) (world : σ) (id : UInt8) (calls : List (Call L V)) :
    Registry L V × σ × Except RegistryError (V × List (Reply V)) :=
  r.visit world id fun value r world =>
    let (r, world, replies) := performAll idle calls r world
    (r, world, (value, replies), value)

end Registry

/-! ## Listeners that keep a log -/

/-- A value handed to a listener, and what the registry answered it. -/
structure Notice (L V : Type) where
  listener : L
  value : V
  reply : Option (Reply V)

/-- Listeners of which each may make a call when it is handed a value. -/
structure Audience (L V : Type) where
  /-- The call of each listener that makes one. -/
  reactions : L → Option (Call L V)
  /-- What was handed out, in order. -/
  log : List (Notice L V)

namespace Audience

variable {L V : Type} [DecidableEq L] [Inhabited V]

def silent : Audience L V := ⟨fun _ => none, []⟩

/-- Sets what a listener does from now on. -/
def react (a : Audience L V) (l : L) (c : Option (Call L V)) : Audience L V :=
  { a with reactions := fun k => if k = l then c else a.reactions k }

/-- A listener is handed a value: it makes its call, and the log takes it down. -/
def handle (l : L) (value : V) : Callback L V (Audience L V) Unit := fun r a =>
  match a.reactions l with
  | none => (r, { a with log := a.log ++ [⟨l, value, none⟩] }, ())
  | some c =>
    let (r, a, reply) := Registry.perform Registry.idle c r a
    (r, { a with log := a.log ++ [⟨l, value, some reply⟩] }, ())

end Audience

end GimbalLink
