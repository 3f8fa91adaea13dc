import GimbalLink.Listeners.Call
import GimbalLink.Telemetry
/-
  Inboxes for the gimbal's broadcasts.

  An inbox holds the latest status that nobody has taken yet; a newer one replaces
  it. Inboxes listen at a registry: whatever is published for a node goes into the
  inboxes bound to it.

  What is proved: a status that is put, or taken, shows in its own inbox alone
  (`put_self`, `put_of_ne`, `clear_self`, `clear_of_ne`).
-/
namespace GimbalLink

/-- The latest status, if it is not taken yet. -/
abbrev Inbox := Option BusStatus

/-- Inboxes, by number. -/
abbrev Inboxes := Nat → Inbox

namespace Inboxes

/-- A status goes into an inbox. -/
def put (boxes : Inboxes) (i : Nat) (s : BusStatus) : Inboxes :=
  fun j => if j = i then some s else boxes j

/-- Empties an inbox. -/
def clear (boxes : Inboxes) (i : Nat) : Inboxes := fun j => if j = i then none else boxes j

/-- What an inbox does as a listener. -/
def handle (i : Nat) (s : BusStatus) : Callback Nat BusStatus Inboxes Unit :=
  fun r boxes => (r, boxes.put i s, ())

theorem put_self (boxes : Inboxes) (i : Nat) (s : BusStatus) :
    boxes.put i s i = some s := if_pos rfl

theorem put_of_ne (boxes : Inboxes) {i j : Nat} (s : BusStatus) (h : j ≠ i) :
    boxes.put i s j = boxes j := if_neg h

theorem clear_self (boxes : Inboxes) (i : Nat) : boxes.clear i i = none := if_pos rfl

theorem clear_of_ne (boxes : Inboxes) {i j : Nat} (h : j ≠ i) :
    boxes.clear i j = boxes j := if_neg h

end Inboxes

/-- A registry whose listeners are inboxes. -/
structure StatusBus where
  registry : Registry Nat BusStatus
  inboxes : Inboxes

namespace StatusBus

def new (idRoom slotRoom : Nat) : StatusBus := ⟨.new idRoom slotRoom, fun _ => none⟩

/-- Makes a call on the registry. -/
def perform (b : StatusBus) (c : Call Nat BusStatus) : StatusBus × Reply BusStatus :=
  let (registry, inboxes, reply) := Registry.perform Inboxes.handle c b.registry b.inboxes
  (⟨registry, inboxes⟩, reply)

/-- A status goes into an inbox past the registry. -/
def deliver (b : StatusBus) (inbox : Nat) (s : BusStatus) : StatusBus :=
  { b with inboxes := b.inboxes.put inbox s }

/-- Takes what waits in an inbox. -/
def take (b : StatusBus) (inbox : Nat) : StatusBus × Inbox :=
  ({ b with inboxes := b.inboxes.clear inbox }, b.inboxes inbox)

end StatusBus

end GimbalLink
