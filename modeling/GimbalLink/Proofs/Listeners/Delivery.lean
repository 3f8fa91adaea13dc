import GimbalLink.Listeners.Inboxes
import GimbalLink.Proofs.Listeners.Handing
import GimbalLink.Proofs.Listeners.Places
/-
  Delivery to an inbox.

  An inbox that is bound to a node has its places in the registry, and so what is published
  for the node arrives, whatever the others do. What waits in the inbox is told by a ledger,
  which keeps the value stored for the node and all that was delivered since the inbox was
  last emptied. The ledger looks only at what concerns the node or the inbox, and that is
  why nothing else can be seen in what is taken.

  What is proved:
    1. `StatusBus.use_eq`: the inboxes after a use, from what the registry hands out.
    2. `StatusBus.Serves.operate`, `StatusBus.serves_run`: the inbox keeps to the ledger.
    3. `StatusBus.run_delivery`: delivery and isolation over any run after a registration.
-/
namespace GimbalLink

variable {α : Type}

namespace StatusBus

/-! ## A bus -/

/-- What an inbox does when it is handed a status. -/
def receive (inbox : Nat) (s : BusStatus) (boxes : Inboxes) : Inboxes := boxes.put inbox s

/-- Uses the registry, with the inboxes as its listeners. -/
def use (b : StatusBus) : Use Nat BusStatus α → StatusBus × Reply α
  | .register l id =>
    let (registry, result) := b.registry.register l id
    ({ b with registry }, .number result)
  | .remove l =>
    let (registry, result) := b.registry.remove l
    ({ b with registry }, .number result)
  | .visit id f =>
    let (registry, inboxes, result) :=
      b.registry.visit b.inboxes id fun value r boxes => (r, boxes, f value)
    (⟨registry, inboxes⟩, .value result)
  | .notify id =>
    let (registry, inboxes, result) := b.registry.notify b.inboxes id Inboxes.handle
    (⟨registry, inboxes⟩, .number result)
  | .publish id s =>
    let (registry, inboxes, result) := b.registry.publish b.inboxes id s Inboxes.handle
    (⟨registry, inboxes⟩, .number result)
  | .count => (b, .count b.registry.listenerCount)

/-- A use of the registry, or of an inbox. -/
inductive Operation (α : Type) where
  | use (u : Use Nat BusStatus α)
  | take (inbox : Nat)

inductive Outcome (α : Type) where
  | replied (reply : Reply α)
  | taken (waiting : Inbox)

def operate (b : StatusBus) : Operation α → StatusBus × Outcome α
  | .use u =>
    let (b, reply) := b.use u
    (b, .replied reply)
  | .take inbox =>
    let (b, waiting) := b.take inbox
    (b, .taken waiting)

/-- The use that a call is. -/
def useOf : Call Nat BusStatus → Use Nat BusStatus BusStatus
  | .register l id => .register l id
  | .remove l => .remove l
  | .read id => .visit id fun s => (s, s)
  | .swap id new => .visit id fun old => (old, new)
  | .notify id => .notify id
  | .publish id s => .publish id s
  | .count => .count

theorem perform_eq_use (b : StatusBus) (c : Call Nat BusStatus) :
    b.perform c = b.use (useOf c) := by
  cases c <;> rfl

/-- A use does to the registry what it does to one with listeners that take down what they are
handed, and every notice goes into its inbox. -/
theorem use_eq (b : StatusBus) (u : Use Nat BusStatus α) :
    b.use u =
      (⟨(b.registry.use u).1, Registry.tell receive b.inboxes (b.registry.use u).2.2⟩,
        (b.registry.use u).2.1) := by
  have hhandle : Inboxes.handle = Registry.acts (V := BusStatus) receive := rfl
  cases u with
  | visit id f =>
    have hv := b.registry.visit_acts ([] : List (Nat × BusStatus)) id f
    simp only [use, Registry.use, b.registry.visit_acts b.inboxes id f]
    rw [hv]
    rfl
  | notify id =>
    simp only [use, Registry.use, hhandle, Registry.notify_acts]
  | publish id s =>
    simp only [use, Registry.use, hhandle, Registry.publish_acts]
  | _ => rfl

/-! ## The ledger -/

/-- What is known of an inbox that is bound to a node. -/
structure Ledger where
  /-- The value stored for the node. -/
  value : BusStatus
  /-- What was delivered for the node since the inbox was last emptied, in order. -/
  delivered : List BusStatus

/-- The operation takes what waits in the inbox. -/
def Operation.takesFrom (inbox : Nat) : Operation α → Bool
  | .take j => j = inbox
  | .use _ => false

/-- The operation registers or removes the inbox. -/
def Operation.rebinds (inbox : Nat) : Operation α → Bool
  | .use (.register l _) => l = inbox
  | .use (.remove l) => l = inbox
  | _ => false

/-- The operation names the node, or takes from the inbox. -/
def Operation.concerns (inbox : Nat) (n : UInt8) : Operation α → Bool
  | .use (.visit id _) => id = n
  | .use (.notify id) => id = n
  | .use (.publish id _) => id = n
  | op => op.takesFrom inbox

namespace Ledger

/-- The ledger after an operation. -/
def record (inbox : Nat) (n : UInt8) (g : Ledger) : Operation α → Ledger
  | .use u => ⟨u.leaves n g.value, g.delivered ++ (u.delivers n g.value).toList⟩
  | .take j => if j = inbox then { g with delivered := [] } else g

/-- What the operations of a run that take from the inbox find there. -/
def takes (inbox : Nat) (n : UInt8) (g : Ledger) : List (Operation α) → List Inbox
  | [] => []
  | op :: rest =>
    (if op.takesFrom inbox then [g.delivered.getLast?] else []) ++
      (g.record inbox n op).takes inbox n rest

variable {inbox : Nat} {n : UInt8} {g : Ledger}

theorem record_of_not_concerns {op : Operation α} (h : op.concerns inbox n = false) :
    g.record inbox n op = g := by
  cases op with
  | take j => exact if_neg (of_decide_eq_false h)
  | use u =>
    have hu : u.leaves n g.value = g.value ∧ u.delivers n g.value = none := by
      cases u with
      | visit id f => exact ⟨if_neg (of_decide_eq_false h), rfl⟩
      | notify id => exact ⟨rfl, if_neg (of_decide_eq_false h)⟩
      | publish id s => exact ⟨if_neg (of_decide_eq_false h), if_neg (of_decide_eq_false h)⟩
      | _ => exact ⟨rfl, rfl⟩
    rw [record, hu.1, hu.2, Option.toList_none, List.append_nil]

/-- What is found in the inbox hangs on what concerns it. -/
theorem takes_filter (g : Ledger) (ops : List (Operation α)) :
    g.takes inbox n (ops.filter (Operation.concerns inbox n)) = g.takes inbox n ops := by
  induction ops generalizing g with
  | nil => rfl
  | cons op rest ih =>
    cases h : op.concerns inbox n with
    | true =>
      rw [List.filter_cons_of_pos h, takes, takes, ih]
    | false =>
      -- An operation that does not concern the inbox neither takes from it nor is recorded.
      have ht : op.takesFrom inbox = false := by
        cases op with
        | take j => exact h
        | use u => rfl
      rw [List.filter_cons_of_neg (by rw [h]; decide), ih, takes, ht, record_of_not_concerns h]
      rfl

end Ledger

/-- An inbox is bound to a node and to no other, and what waits in it is what was delivered
last since it was emptied. -/
structure Serves (b : StatusBus) (inbox : Nat) (n : UInt8) (g : Ledger) : Prop where
  free : b.registry.locked = false
  reserved : b.registry.board.Reserved inbox n g.value
  waiting_eq : b.inboxes inbox = g.delivered.getLast?

variable {b : StatusBus} {inbox : Nat} {n : UInt8} {g : Ledger}

/-- Notices to other inboxes leave the inbox as it is. -/
theorem tell_receive_of_forall_ne {notices : List (Nat × BusStatus)}
    (h : ∀ x ∈ notices, x.1 ≠ inbox) (boxes : Inboxes) :
    Registry.tell receive boxes notices inbox = boxes inbox := by
  induction notices generalizing boxes with
  | nil => rfl
  | cons x rest ih =>
    refine (ih (fun y hy => h y (List.mem_cons_of_mem _ hy)) _).trans ?_
    exact Inboxes.put_of_ne boxes x.2 (h x List.mem_cons_self).symm

/-- If all that is handed to the inbox is one status, that is in it, whether it was there or
is handed to it. -/
theorem tell_receive_of_forall_eq {notices : List (Nat × BusStatus)} {s : BusStatus}
    (h : ∀ x ∈ notices, x.1 = inbox → x.2 = s) {boxes : Inboxes}
    (hs : boxes inbox = some s ∨ ∃ x ∈ notices, x.1 = inbox) :
    Registry.tell receive boxes notices inbox = some s := by
  induction notices generalizing boxes with
  | nil =>
    obtain hs | ⟨x, hx, -⟩ := hs
    · exact hs
    · exact absurd hx List.not_mem_nil
  | cons x rest ih =>
    refine ih (fun y hy => h y (List.mem_cons_of_mem _ hy)) ?_
    by_cases hx : x.1 = inbox
    · refine .inl ?_
      show boxes.put x.1 x.2 inbox = some s
      rw [hx, h x List.mem_cons_self hx, Inboxes.put_self]
    · obtain hs | ⟨y, hy, hi⟩ := hs
      · exact .inl ((Inboxes.put_of_ne boxes x.2 (Ne.symm hx)).trans hs)
      · obtain rfl | hy := List.mem_cons.1 hy
        · exact absurd hi hx
        · exact .inr ⟨y, hy, hi⟩

theorem tell_receive {notices : List (Nat × BusStatus)} {handed : Option BusStatus}
    (h : ∀ s, (inbox, s) ∈ notices ↔ handed = some s) (boxes : Inboxes) :
    Registry.tell receive boxes notices inbox = handed.or (boxes inbox) := by
  cases handed with
  | none =>
    refine tell_receive_of_forall_ne ?_ boxes
    rintro x hx rfl
    exact nomatch (h x.2).1 hx
  | some s =>
    refine tell_receive_of_forall_eq ?_ (.inr ⟨_, (h s).2 rfl, rfl⟩)
    rintro x hx rfl
    exact (Option.some.inj ((h x.2).1 hx)).symm

/-- What a use delivers for the node goes into the inbox, and nothing else does. -/
theorem Serves.inboxes_use (h : b.Serves inbox n g) (u : Use Nat BusStatus α) :
    (b.use u).1.inboxes inbox = (u.delivers n g.value).or (b.inboxes inbox) := by
  rw [use_eq]
  cases hr : u.isRegister with
  | true =>
    cases u with
    | register l id => rfl
    | _ => cases hr
  | false =>
    by_cases hu : u = .remove inbox
    · subst hu
      rfl
    · obtain ⟨-, hb⟩ := Registry.use_eq_board h.free hr
      obtain ⟨-, hhand⟩ := h.reserved.use hr hu
      rw [hb] at hhand
      exact tell_receive hhand b.inboxes

theorem Serves.use (h : b.Serves inbox n g) {u : Use Nat BusStatus α}
    (hu : (Operation.use u).rebinds inbox = false) :
    (b.use u).1.Serves inbox n (g.record inbox n (.use u)) := by
  have hwaiting : (b.use u).1.inboxes inbox =
      (g.delivered ++ (u.delivers n g.value).toList).getLast? := by
    rw [h.inboxes_use, h.waiting_eq]
    cases u.delivers n g.value <;> simp
  have hregistry : (b.use u).1.registry = (b.registry.use u).1 := by rw [use_eq]
  -- A board cannot tell which id a listener without one is given, so a registration is known
  -- only by the list of what can come of it.
  cases hr : u.isRegister with
  | true =>
    cases u with
    | register l id =>
      obtain ⟨hl, hreg⟩ := Registry.registered h.free l id
      exact ⟨hl, h.reserved.registered (of_decide_eq_false hu) hreg, hwaiting⟩
    | _ => cases hr
  | false =>
    obtain ⟨hl, hb⟩ := Registry.use_eq_board h.free hr
    have hne : u ≠ .remove inbox := by
      rintro rfl
      exact of_decide_eq_false hu rfl
    obtain ⟨hres, -⟩ := h.reserved.use hr hne
    rw [hb, ← hregistry] at hres
    exact ⟨hregistry ▸ hl, hres, hwaiting⟩

/-- What is published for the node is handed to somebody, and waits in the inbox. -/
theorem Serves.publish (h : b.Serves inbox n g) (s : BusStatus) :
    ∃ count, (b.perform (.publish n s)).2 = .number (.ok (count + 1)) ∧
      (b.perform (.publish n s)).1.inboxes inbox = some s := by
  have hdelivers : (useOf (.publish n s)).delivers n g.value = some s := if_pos rfl
  obtain ⟨-, hb⟩ := Registry.use_eq_board (u := useOf (.publish n s)) h.free rfl
  have hreply : (b.use (useOf (.publish n s))).2 =
      .number (.ok (b.registry.board.notices n s).length) := by
    rw [use_eq]
    have hr := congrArg (fun result => result.2.1) hb
    simp only [useOf, Board.use, Board.publish, h.reserved.allocate_self] at hr
    exact hr.symm
  -- The inbox itself is one of those that are counted.
  have hm : (inbox, s) ∈ b.registry.board.notices n s :=
    Board.mem_notices.2 ⟨rfl, h.reserved.bound⟩
  obtain ⟨count, hcount⟩ := Nat.exists_eq_add_of_lt (List.length_pos_of_mem hm)
  rw [perform_eq_use]
  refine ⟨count, ?_, ?_⟩
  · rw [hreply, hcount, Nat.zero_add]
  · rw [h.inboxes_use, hdelivers]
    rfl

theorem Serves.operate (h : b.Serves inbox n g) {op : Operation α}
    (ho : op.rebinds inbox = false) : (b.operate op).1.Serves inbox n (g.record inbox n op) := by
  cases op with
  | use u => exact h.use ho
  | take j =>
    show Serves ⟨b.registry, b.inboxes.clear j⟩ _ _ (if j = inbox then _ else _)
    by_cases hj : j = inbox
    · subst hj
      rw [if_pos rfl]
      exact ⟨h.free, h.reserved, Inboxes.clear_self _ _⟩
    · rw [if_neg hj]
      exact ⟨h.free, h.reserved, (Inboxes.clear_of_ne _ (Ne.symm hj)).trans h.waiting_eq⟩

/-! ## Runs -/

theorem serves_run (h : b.Serves inbox n g) {ops : List (Operation α)}
    (ho : ∀ op ∈ ops, op.rebinds inbox = false) :
    (run operate b ops).1.Serves inbox n (ops.foldl (Ledger.record inbox n) g) := by
  induction ops generalizing b g with
  | nil => exact h
  | cons op rest ih =>
    exact ih (h.operate (ho op List.mem_cons_self)) fun x hx => ho x (List.mem_cons_of_mem _ hx)

/-- What an operation took from an inbox, if it did. -/
def takenFrom (inbox : Nat) : Operation α → Outcome α → Option Inbox
  | .take j, .taken waiting => if j = inbox then some waiting else none
  | _, _ => none

/-- What a run took from an inbox, in order. -/
def takes (inbox : Nat) (b : StatusBus) (ops : List (Operation α)) : List Inbox :=
  writes (takenFrom inbox) ops (run operate b ops).2

theorem takenFrom_operate (h : b.Serves inbox n g) (op : Operation α) :
    takenFrom inbox op (b.operate op).2 =
      if op.takesFrom inbox then some g.delivered.getLast? else none := by
  cases op with
  | use u => rfl
  | take j =>
    show (if j = inbox then some (b.inboxes j) else none) =
      if decide (j = inbox) = true then _ else _
    by_cases hj : j = inbox
    · rw [hj, h.waiting_eq]
      simp
    · simp [hj]

theorem takes_eq (h : b.Serves inbox n g) {ops : List (Operation α)}
    (ho : ∀ op ∈ ops, op.rebinds inbox = false) : b.takes inbox ops = g.takes inbox n ops := by
  induction ops generalizing b g with
  | nil => rfl
  | cons op rest ih =>
    have hrest := ih (h.operate (ho op List.mem_cons_self)) fun x hx =>
      ho x (List.mem_cons_of_mem _ hx)
    have hop := takenFrom_operate h op
    rw [Ledger.takes, ← hrest]
    show List.filterMap id (takenFrom inbox op (b.operate op).2 :: _) = _
    rw [hop]
    cases op.takesFrom inbox <;> rfl

/-- The lock is free, and what the registry shows is sound. -/
structure Sound (b : StatusBus) : Prop where
  free : b.registry.locked = false
  board : b.registry.board.Sound

theorem Sound.operate (h : b.Sound) (op : Operation α) : (b.operate op).1.Sound := by
  cases op with
  | take inbox => exact ⟨h.free, h.board⟩
  | use u =>
    have hregistry : (b.operate (.use u)).1.registry = (b.registry.use u).1 := by
      show (b.use u).1.registry = _
      rw [use_eq]
    obtain ⟨hfree, hboard⟩ := Registry.sound_use h.free h.board u
    exact ⟨hregistry ▸ hfree, hregistry ▸ hboard⟩

theorem sound_run (idRoom slotRoom : Nat) (history : List (Operation α)) :
    (run operate (new idRoom slotRoom) history).1.Sound := by
  have hnew : (new idRoom slotRoom).Sound :=
    ⟨rfl, List.nodup_nil, Nat.zero_le _, fun x hx => nomatch List.eq_of_mem_replicate hx⟩
  exact run_invariant (P := Sound) (fun _ op h => h.operate op) hnew history

/-- An inbox that is empty, bound to no other id, and registered with success, is served. -/
theorem Sound.serves_register (h : b.Sound) (hn : n ≠ 0) (hempty : b.inboxes inbox = none)
    (honly : ∀ x, some x ∈ b.registry.slots → x.listener = inbox → x.id = n) {d : StatusBus}
    {slot : Nat}
    (hd : b.use (.register inbox n : Use Nat BusStatus α) = (d, .number (.ok slot))) :
    d.Serves inbox n ⟨(d.registry.board.value? n).getD default, []⟩ := by
  obtain ⟨hl, hreg⟩ := Registry.registered h.free inbox n
  obtain ⟨rfl, hresult⟩ : { b with registry := (b.registry.register inbox n).1 } = d ∧
      (b.registry.register inbox n).2 = .ok slot := by
    simpa [use] using hd
  obtain ⟨value, hres⟩ := h.board.reserved hn honly hreg ⟨slot, hresult⟩
  refine ⟨hl, ?_, hempty⟩
  rw [show (b.registry.register inbox n).1.board.value? n = some value from hres.value_eq]
  exact hres

/-- Delivery and isolation. Let an inbox that is empty, and bound to no other id, be registered
with success for a node. Then over every run that does not register or remove it again: what
is taken from it is what was delivered last for the node since it was emptied; every status
that is published for the node is handed to somebody and waits in the inbox; no other use
changes what waits there; and two runs that differ only in what does not concern the node or
the inbox take the same from it. -/
theorem run_delivery (idRoom slotRoom : Nat) (history : List (Operation α)) (inbox : Nat)
    (n : UInt8) :
    let b := (run operate (new idRoom slotRoom) history).1
    let bound := b.use (.register inbox n : Use Nat BusStatus α)
    n ≠ 0 → b.inboxes inbox = none →
    (∀ x, some x ∈ b.registry.slots → x.listener = inbox → x.id = n) →
    (∃ slot, bound.2 = .number (.ok slot)) →
    ∀ ops : List (Operation α), (∀ op ∈ ops, op.rebinds inbox = false) →
    let r := (run operate bound.1 ops).1
    let g := ops.foldl (Ledger.record inbox n)
      ⟨(bound.1.registry.board.value? n).getD default, []⟩
    (r.take inbox).2 = g.delivered.getLast? ∧
    (∀ s, ∃ count, (r.perform (.publish n s)).2 = .number (.ok (count + 1)) ∧
      (r.perform (.publish n s)).1.inboxes inbox = some s) ∧
    (∀ u : Use Nat BusStatus α, u ≠ .notify n → (∀ s, u ≠ .publish n s) →
      (r.use u).1.inboxes inbox = r.inboxes inbox) ∧
    ∀ others : List (Operation α), (∀ op ∈ others, op.rebinds inbox = false) →
      others.filter (Operation.concerns inbox n) = ops.filter (Operation.concerns inbox n) →
      bound.1.takes inbox others = bound.1.takes inbox ops := by
  intro b bound hn hempty honly hok ops hops r g
  have hsound : b.Sound := sound_run idRoom slotRoom history
  obtain ⟨slot, hslot⟩ := hok
  have hbound := hsound.serves_register hn hempty honly (Prod.ext rfl hslot)
  have hserves : r.Serves inbox n g := serves_run hbound hops
  refine ⟨hserves.waiting_eq, hserves.publish, fun u hnotify hpublish => ?_,
    fun others hothers hsame => ?_⟩
  · have hnone : u.delivers n g.value = none := by
      cases u with
      | notify id => exact if_neg fun hid : id = n => hnotify (hid ▸ rfl)
      | publish id s => exact if_neg fun hid : id = n => hpublish s (hid ▸ rfl)
      | _ => rfl
    rw [hserves.inboxes_use, hnone]
    rfl
  · rw [takes_eq hbound hothers, takes_eq hbound hops, ← Ledger.takes_filter, hsame,
      Ledger.takes_filter]

/-- Two ids and two slots; another node's id is taken up. -/
def crowded : StatusBus :=
  (run operate (new 2 2) [(.use (.publish 72 default) : Operation Unit)]).1

/-- A status of a mode. -/
def statusOf (mode : UInt8) : BusStatus := { (default : BusStatus) with mode }

/-- Others fill the registry, and leave it, around two statuses for the node. -/
def crowdedOps : List (Operation Unit) :=
  [.use (.register 1 72), .use (.publish 71 (statusOf 1)), .use (.register 2 90),
    .use (.publish 90 (statusOf 2)), .use (.publish 71 (statusOf 3)),
    .use (.publish 72 (statusOf 4)), .use (.remove 1), .take 1]

/-- The two statuses alone. -/
def quietOps : List (Operation Unit) :=
  [.use (.publish 71 (statusOf 1)), .use (.publish 71 (statusOf 3))]

theorem run_delivery_crowded :
    let bound := (crowded.use (.register 0 71 : Use Nat BusStatus Unit)).1
    (71 : UInt8) ≠ 0 ∧ crowded.inboxes 0 = none ∧
      (∀ x, some x ∈ crowded.registry.slots → x.listener = 0 → x.id = 71) ∧
      (crowded.use (.register 0 71 : Use Nat BusStatus Unit)).2 = .number (.ok 1) ∧
      (∀ op ∈ crowdedOps, op.rebinds 0 = false) ∧
      ((run operate bound crowdedOps).1.take 0).2 = some (statusOf 3) ∧
      bound.takes 0 (crowdedOps ++ [.take 0, .take 0]) =
        bound.takes 0 (quietOps ++ [.take 0, .take 0]) := by
  intro bound
  have hn : (71 : UInt8) ≠ 0 := by decide
  have hempty : crowded.inboxes 0 = none := rfl
  have honly : ∀ x, some x ∈ crowded.registry.slots → x.listener = 0 → x.id = 71 :=
    fun x hx _ => nomatch List.eq_of_mem_replicate (n := 2) hx
  have hok : (crowded.use (.register 0 71 : Use Nat BusStatus Unit)).2 = .number (.ok 1) := rfl
  have hops : ∀ op ∈ crowdedOps, op.rebinds 0 = false := by decide
  have hlong : ∀ op ∈ crowdedOps ++ [.take 0, .take 0], op.rebinds 0 = false := by decide
  have hquiet : ∀ op ∈ quietOps ++ [.take 0, .take 0], op.rebinds 0 = false := by decide
  have hdelivery := run_delivery 2 2 [(.use (.publish 72 default) : Operation Unit)] 0 71 hn hempty
    honly ⟨1, hok⟩
  obtain ⟨htake, -⟩ := hdelivery crowdedOps hops
  obtain ⟨-, -, -, hsame⟩ := hdelivery (quietOps ++ [.take 0, .take 0]) hquiet
  exact ⟨hn, hempty, honly, hok, hops, htake.trans rfl, hsame _ hlong rfl⟩

end StatusBus

end GimbalLink
