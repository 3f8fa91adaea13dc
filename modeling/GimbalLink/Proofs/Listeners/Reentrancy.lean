import GimbalLink.Proofs.Listeners.Handing
/-
  Calls from inside a call.

  A listener that is handed a value, or a visitor of one, may call the registry again, and
  what it does next may hang on the reply. Its behaviour is a `Script`: it acts on the world,
  calls, and goes on with the reply. A call with scripts for its callbacks is an `Errand`, and
  what happens around it is taken down in a `Scene`: who was handed what, and which calls were
  made from inside.

  The lock is held while a script runs, so every call that it makes is refused and leaves the
  registry as it was. To see what that comes to, an errand is compared with the use of the
  registry in which nobody calls from inside: the listeners only take down what they are
  handed, and the visitor is told that it is refused without having called.

  What is proved:
    1. `Script.run_of_locked`: a script that runs under the lock does what it does alone.
    2. `Registry.visit_scripted`, `Registry.notify_scripted`, `Registry.publish_scripted`:
       what each call does whose callbacks are scripts.
    3. `Registry.use_settled`: a use that fails changes nothing, the lock is afterwards as it
       was before, and a use is refused just if the lock is held.
    4. `Registry.request_undisturbed`: all of it together, for every errand and registry.
-/
namespace GimbalLink

/-! ## Replies -/

namespace Reply

variable {α : Type}

/-- The call was refused because the lock is held. -/
def isRefused : Reply α → Bool
  | number (.error .busy) => true
  | value (.error .busy) => true
  | count none => true
  | _ => false

/-- The call came to nothing. -/
def failed : Reply α → Bool
  | number (.error _) => true
  | value (.error _) => true
  | count none => true
  | _ => false

theorem isRefused_number (result : Except RegistryError Nat) :
    (number result : Reply α).isRefused = true ↔ result = .error .busy := by
  obtain e | n := result
  · cases e <;> simp [isRefused]
  · simp [isRefused]

theorem isRefused_value (result : Except RegistryError α) :
    (value result).isRefused = true ↔ result = .error .busy := by
  obtain e | a := result
  · cases e <;> simp [isRefused]
  · simp [isRefused]

end Reply

/-! ## Requests and scripts -/

/-- One call of a registry, with its callbacks. -/
inductive Request (L V σ α : Type) where
  | register (listener : L) (id : UInt8)
  | remove (listener : L)
  | visit (id : UInt8) (visitor : V → Callback L V σ (α × V))
  | notify (id : UInt8) (handle : L → V → Callback L V σ Unit)
  | publish (id : UInt8) (value : V) (handle : L → V → Callback L V σ Unit)
  | count

/-- The reply to a call that is refused. -/
def Request.refusal {L V σ α : Type} : Request L V σ α → Reply α
  | .visit .. => .value (.error .busy)
  | .count => .count none
  | _ => .number (.error .busy)

theorem Request.isRefused_refusal {L V σ α : Type} (q : Request L V σ α) :
    q.refusal.isRefused = true := by
  cases q <;> rfl

/-- What a callback does, step by step. -/
inductive Script (L V σ α : Type) : Type 1 where
  | finish (world : σ) (answer : α)
  /-- Calls the registry, and goes on in the world that the call leaves, with its reply. -/
  | call {β : Type} (world : σ) (request : Request L V σ β)
    (next : σ → Reply β → Script L V σ α)

/-- A call that was made from inside. -/
structure NestedCall (L V : Type) where
  before : Registry L V
  after : Registry L V
  refused : Bool

/-- What happens around a call. -/
structure Scene (L V σ : Type) where
  world : σ
  /-- Who was handed what, in order. -/
  heard : List (L × V)
  /-- The calls from inside, in order. -/
  nested : List (NestedCall L V)

/-- Every call from inside was refused, and left the registry as it was. -/
def Scene.Vain {L V σ : Type} (s : Scene L V σ) : Prop :=
  ∀ x ∈ s.nested, x.refused = true ∧ x.after = x.before

/-- One call of a registry, from outside, with scripts for its callbacks. -/
inductive Errand (L V σ α : Type) : Type 1 where
  | register (listener : L) (id : UInt8)
  | remove (listener : L)
  | visit (id : UInt8) (visitor : V → σ → Script L V σ (α × V))
  | notify (id : UInt8) (listeners : L → V → σ → Script L V σ Unit)
  | publish (id : UInt8) (value : V) (listeners : L → V → σ → Script L V σ Unit)
  | count

variable {L V σ α β : Type} [DecidableEq L] [Inhabited V]

/-- Makes one call. -/
def Registry.request (q : Request L V σ α) : Callback L V σ (Reply α) := fun r world =>
  match q with
  | .register l id =>
    let (r, result) := r.register l id
    (r, world, .number result)
  | .remove l =>
    let (r, result) := r.remove l
    (r, world, .number result)
  | .visit id visitor =>
    let (r, world, result) := r.visit world id visitor
    (r, world, .value result)
  | .notify id handle =>
    let (r, world, result) := r.notify world id handle
    (r, world, .number result)
  | .publish id value handle =>
    let (r, world, result) := r.publish world id value handle
    (r, world, .number result)
  | .count => (r, world, .count r.listenerCount)

namespace Script

/-- Runs a script on the registry as it stands; tells the world that it leaves, its answer and
the calls that it made. -/
def run : Script L V σ α → Registry L V → Registry L V × σ × α × List (NestedCall L V)
  | finish world answer, r => (r, world, answer, [])
  | call world request next, r =>
    let (after, world, reply) := Registry.request request r world
    let (last, world, answer, rest) := (next world reply).run after
    (last, world, answer, ⟨r, after, reply.isRefused⟩ :: rest)

/-- The world and the answer of a script that is told at each call that it is refused, and
makes none. -/
def alone : Script L V σ α → σ × α
  | finish world answer => (world, answer)
  | call world request next => (next world request.refusal).alone

/-- A script as a callback. -/
def callback (s : σ → Script L V σ α) : Callback L V (Scene L V σ) α := fun r scene =>
  let (r, world, answer, nested) := (s scene.world).run r
  (r, { scene with world, nested := scene.nested ++ nested }, answer)

/-- Scripts as listeners; the scene takes down what they are handed. -/
def listener (s : L → V → σ → Script L V σ Unit) : L → V → Callback L V (Scene L V σ) Unit :=
  fun l value r scene => callback (s l value) r { scene with heard := scene.heard ++ [(l, value)] }

end Script

namespace Errand

def request : Errand L V σ α → Request L V (Scene L V σ) α
  | register l id => .register l id
  | remove l => .remove l
  | visit id visitor => .visit id fun value => Script.callback (visitor value)
  | notify id listeners => .notify id (Script.listener listeners)
  | publish id value listeners => .publish id value (Script.listener listeners)
  | count => .count

/-- The same call with nobody calling from inside. -/
def quiet (world : σ) : Errand L V σ α → Use L V α
  | register l id => .register l id
  | remove l => .remove l
  | visit id visitor => .visit id fun value => (visitor value world).alone.2
  | notify id _ => .notify id
  | publish id value _ => .publish id value
  | count => .count

end Errand

/-! ## Under the lock -/

variable {r : Registry L V}

/-- Whatever is called under the lock is refused, and changes nothing. -/
theorem Registry.request_of_locked (h : r.locked = true) (q : Request L V σ α) (world : σ) :
    request q r world = (r, world, q.refusal) := by
  cases q with
  | register l id => rw [request, register_of_locked h]; rfl
  | remove l => rw [request, remove_of_locked h]; rfl
  | visit id visitor => rw [request, visit_of_locked world h]; rfl
  | notify id handle => rw [request, notify_of_locked world h]; rfl
  | publish id value handle => rw [request, publish_of_locked world h]; rfl
  | count =>
    rw [request, listenerCount, if_pos h]
    rfl

namespace Script

/-- Under the lock a script does what it does alone, and the calls that it makes are in
vain. -/
theorem run_of_locked (h : r.locked = true) (s : Script L V σ α) :
    ∃ nested, s.run r = (r, s.alone.1, s.alone.2, nested) ∧
      ∀ x ∈ nested, x.refused = true ∧ x.after = x.before := by
  induction s with
  | finish world answer => exact ⟨[], rfl, nofun⟩
  | call world q next ih =>
    obtain ⟨nested, hrun, hvain⟩ := ih world q.refusal
    refine ⟨⟨r, r, true⟩ :: nested, ?_, ?_⟩
    · simp only [run, Registry.request_of_locked h, hrun, q.isRefused_refusal]
      rfl
    · intro x hx
      obtain rfl | hx := List.mem_cons.1 hx
      · exact ⟨rfl, rfl⟩
      · exact hvain x hx

theorem callback_of_locked (h : r.locked = true) (s : σ → Script L V σ α) {scene : Scene L V σ}
    (hv : scene.Vain) :
    ∃ after : Scene L V σ, callback s r scene = (r, after, (s scene.world).alone.2) ∧
      after.heard = scene.heard ∧ after.Vain := by
  obtain ⟨nested, hrun, hvain⟩ := run_of_locked h (s scene.world)
  refine ⟨{ scene with world := (s scene.world).alone.1, nested := scene.nested ++ nested },
    ?_, rfl, ?_⟩
  · simp only [callback, hrun]
  · intro x hx
    exact (List.mem_append.1 hx).elim (hv x) (hvain x)

end Script

namespace Registry

/-! ## Calls with scripts -/

omit [DecidableEq L] [Inhabited V] in
theorem locked_lock (r : Registry L V) : r.lock.locked = true := rfl

theorem handAll_scripted (h : r.locked = true) (s : L → V → σ → Script L V σ Unit) (value : V)
    (ls : List L) {scene : Scene L V σ} (hv : scene.Vain) :
    ∃ after : Scene L V σ, handAll (Script.listener s) value ls r scene = (r, after) ∧
      after.heard = scene.heard ++ ls.map (·, value) ∧ after.Vain := by
  induction ls generalizing scene with
  | nil => exact ⟨scene, rfl, (List.append_nil _).symm, hv⟩
  | cons l rest ih =>
    have hhanded : ({ scene with heard := scene.heard ++ [(l, value)] } : Scene L V σ).Vain := hv
    obtain ⟨next, hnext, hheard, hvnext⟩ := Script.callback_of_locked h (s l value) hhanded
    obtain ⟨after, hafter, hall, hvain⟩ := ih hvnext
    refine ⟨after, ?_, ?_, hvain⟩
    · show handAll _ value rest (Script.callback (s l value) r _).1
        (Script.callback (s l value) r _).2.1 = _
      rw [hnext]
      exact hafter
    · rw [hall, hheard, List.append_assoc]
      rfl

/-- A call with scripts for its callbacks comes to what a plain call comes to. -/
structure Undisturbed (scene : Scene L V σ) (plain : Registry L V × List (L × V) × β)
    (done : Registry L V × Scene L V σ × β) : Prop where
  registry_eq : done.1 = plain.1
  result_eq : done.2.2 = plain.2.2
  heard_eq : done.2.1.heard = scene.heard ++ plain.2.1
  vain : done.2.1.Vain

omit [DecidableEq L] [Inhabited V] in
/-- Nothing was handed out, and nobody called from inside. -/
theorem Undisturbed.of_same {scene : Scene L V σ} (hv : scene.Vain) (after : Registry L V)
    (result : β) : Undisturbed scene (after, [], result) (after, scene, result) :=
  ⟨rfl, rfl, (List.append_nil _).symm, hv⟩

omit [DecidableEq L] [Inhabited V] in
/-- Seen from where nothing was handed out before. -/
theorem Undisturbed.same {world : σ} {plain : Registry L V × List (L × V) × β}
    {done : Registry L V × Scene L V σ × β} (h : Undisturbed ⟨world, [], []⟩ plain done)
    (reply : β → Reply α) :
    (plain.1, reply plain.2.2, plain.2.1) = (done.1, reply done.2.2, done.2.1.heard) := by
  rw [h.registry_eq, h.result_eq, h.heard_eq]
  rfl

theorem notify_scripted (r : Registry L V) (id : UInt8) (s : L → V → σ → Script L V σ Unit)
    {scene : Scene L V σ} (hv : scene.Vain) :
    Undisturbed scene (r.notify [] id hear) (r.notify scene id (Script.listener s)) := by
  cases hl : r.locked with
  | true =>
    rw [notify_of_locked scene hl, notify_of_locked [] hl]
    exact .of_same hv _ _
  | false =>
    unfold notify
    rw [hl]
    cases r.entry? id with
    | none => exact .of_same hv _ _
    | some e =>
      obtain ⟨after, hafter, hheard, hvain⟩ :=
        handAll_scripted r.locked_lock s e.value (r.listenersOf id) hv
      simp only [Bool.false_eq_true, if_false, hafter, handAll_hear, List.nil_append]
      exact ⟨rfl, rfl, hheard, hvain⟩

/-- The visitor answers, and leaves a value, as it does alone. -/
theorem visit_scripted (r : Registry L V) (id : UInt8) (s : V → σ → Script L V σ (α × V))
    {scene : Scene L V σ} (hv : scene.Vain) :
    Undisturbed scene
      (r.visit [] id fun value r heard => (r, heard, (s value scene.world).alone.2))
      (r.visit scene id fun value => Script.callback (s value)) := by
  unfold visit
  split
  · exact .of_same hv _ _
  · cases r.allocate id with
    | none => exact .of_same hv _ _
    | some r' =>
      obtain ⟨after, hafter, hheard, hvain⟩ := Script.callback_of_locked r'.locked_lock
        (s (((r'.entry? id).map (·.value)).getD default)) hv
      simp only [hafter]
      exact ⟨rfl, rfl, hheard.trans (List.append_nil _).symm, hvain⟩

/-- The lock is free for a moment between storing the value and handing it out, but there is
nobody inside to call then. -/
theorem publish_scripted (r : Registry L V) (id : UInt8) (value : V)
    (s : L → V → σ → Script L V σ Unit) {scene : Scene L V σ} (hv : scene.Vain) :
    Undisturbed scene (r.publish [] id value hear)
      (r.publish scene id value (Script.listener s)) := by
  have hw := r.visit_acts scene id fun _ => ((), value)
  have hn : (r.visit ([] : List (L × V)) id fun _ r heard => (r, heard, ((), value))).2.1 = [] := by
    rw [visit_acts]
  unfold publish
  rw [hw]
  generalize r.visit ([] : List (L × V)) id _ = visited at hn ⊢
  obtain ⟨r', heard, result⟩ := visited
  obtain rfl : heard = [] := hn
  cases result with
  | error e => exact .of_same hv _ _
  | ok u => exact notify_scripted r' id s hv

/-! ## How a use ends -/

/-- How a call can end. -/
inductive Settled (r : Registry L V) : Registry L V × Except RegistryError β → Prop
  | busy (h : r.locked = true) : r.Settled (r, .error .busy)
  | refused (h : r.locked = false) {e : RegistryError} (he : e ≠ .busy) : r.Settled (r, .error e)
  | done {after : Registry L V} {answer : β} (h : r.locked = false)
    (ha : after.locked = false) : r.Settled (after, .ok answer)

theorem register_settled (r : Registry L V) (l : L) (id : UInt8) :
    r.Settled (r.register l id) := by
  cases h : r.locked with
  | true =>
    rw [register_of_locked h]
    exact .busy h
  | false =>
    rw [register, if_neg (by rw [h]; decide)]
    dsimp only
    split
    · exact .done h h
    · exact .refused h (by decide)
    · split
      · split
        · exact .refused h (by decide)
        · exact .done h h
      · split
        · exact .refused h (by decide)
        · next ha =>
          exact .done h ((locked_of_allocate ha).trans h)

omit [Inhabited V] in
theorem remove_settled (r : Registry L V) (l : L) : r.Settled (r.remove l) := by
  cases h : r.locked with
  | true =>
    rw [remove_of_locked h]
    exact .busy h
  | false =>
    rw [remove_eq h]
    split
    · exact .refused h (by decide)
    · exact .done h ((locked_lower r _).trans h)

omit [DecidableEq L] in
theorem visit_settled (r : Registry L V) (id : UInt8) (f : V → α × V) :
    r.Settled ((r.visit ([] : List (L × V)) id fun value r heard => (r, heard, f value)).1,
      (r.visit ([] : List (L × V)) id fun value r heard => (r, heard, f value)).2.2) := by
  cases h : r.locked with
  | true =>
    rw [visit_of_locked [] h]
    exact .busy h
  | false =>
    rw [visit_eq h]
    cases ha : r.allocate id with
    | none => exact .refused h (by decide)
    | some r' => exact .done h ((locked_of_allocate ha).trans h)

omit [DecidableEq L] [Inhabited V] in
theorem notify_settled (r : Registry L V) (id : UInt8) :
    r.Settled ((r.notify [] id hear).1, (r.notify [] id hear).2.2) := by
  cases h : r.locked with
  | true =>
    rw [notify_of_locked [] h]
    exact .busy h
  | false =>
    rw [notify_eq h, Board.notify]
    cases r.board.value? id with
    | none => exact .refused h (by decide)
    | some value => exact .done h h

omit [DecidableEq L] in
/-- A value that is stored is handed out, so what is published is not stored in vain. -/
theorem publish_settled (r : Registry L V) (id : UInt8) (value : V) :
    r.Settled ((r.publish [] id value hear).1, (r.publish [] id value hear).2.2) := by
  cases h : r.locked with
  | true =>
    rw [publish_of_locked [] h]
    exact .busy h
  | false =>
    rw [publish_eq h]
    cases ha : r.allocate id with
    | none => exact .refused h (by decide)
    | some r' =>
      have hs : (r'.store id value).locked = false := (locked_of_allocate ha).trans h
      simp only [notify_eq hs, Board.notify, value?_store_of_allocate ha]
      exact .done h hs

omit [DecidableEq L] [Inhabited V] in
/-- What a reply tells of the end of its call. -/
theorem Settled.reply {done : Registry L V × Except RegistryError β} (h : r.Settled done)
    (reply : Except RegistryError β → Reply α)
    (hf : ∀ b, (reply (.ok b)).failed = false)
    (hr : ∀ result, (reply result).isRefused = true ↔ result = .error .busy) :
    ((reply done.2).failed = true → done.1 = r) ∧ done.1.locked = r.locked ∧
      (reply done.2).isRefused = r.locked := by
  have hnot {result : Except RegistryError β} (hn : result ≠ .error .busy) :
      (reply result).isRefused = false :=
    Bool.eq_false_iff.2 fun ht => hn ((hr result).1 ht)
  cases h with
  | busy h => exact ⟨fun _ => rfl, rfl, ((hr _).2 rfl).trans h.symm⟩
  | refused h he =>
    exact ⟨fun _ => rfl, rfl, (hnot fun hb => he (Except.error.inj hb)).trans h.symm⟩
  | @done _ answer h ha =>
    have hok : (Except.ok answer : Except RegistryError β) ≠ .error .busy := nofun
    refine ⟨fun ht => ?_, ha.trans h.symm, (hnot hok).trans h.symm⟩
    exact nomatch (hf answer).symm.trans ht

/-- A use that fails changes nothing, whatever it is; the lock is afterwards as it was, and the
use is refused just if the lock is held. -/
theorem use_settled (r : Registry L V) (u : Use L V α) :
    ((r.use u).2.1.failed = true → (r.use u).1 = r) ∧ (r.use u).1.locked = r.locked ∧
      (r.use u).2.1.isRefused = r.locked := by
  have number {done : Registry L V × Except RegistryError Nat} (h : r.Settled done) :=
    h.reply (Reply.number : _ → Reply α) (fun _ => rfl) Reply.isRefused_number
  have value {done : Registry L V × Except RegistryError α} (h : r.Settled done) :=
    h.reply Reply.value (fun _ => rfl) Reply.isRefused_value
  cases u with
  | register l id => exact number (r.register_settled l id)
  | remove l => exact number (r.remove_settled l)
  | visit id f => exact value (r.visit_settled id f)
  | notify id => exact number (r.notify_settled id)
  | publish id v => exact number (r.publish_settled id v)
  | count =>
    refine ⟨fun _ => rfl, rfl, ?_⟩
    rw [use, listenerCount]
    cases r.locked <;> rfl

/-! ## Errands -/

/-- Calls from inside are in vain and disturb nothing. Whatever the registry and whatever is
called, with scripts of any kind for the callbacks: each call that is made from inside is refused
and leaves the registry as it was; what the call comes to, who is handed what, and the registry
that it leaves are those of the use in which nobody calls from inside. And every call that fails
leaves the registry as it was, the lock is free after a call if it was free before, and a call is
refused just if it was held. -/
theorem request_undisturbed (r : Registry L V) (world : σ) (e : Errand L V σ α) :
    let done := request e.request r ⟨world, [], []⟩
    (∀ x ∈ done.2.1.nested, x.refused = true ∧ x.after = x.before) ∧
      r.use (e.quiet world) = (done.1, done.2.2, done.2.1.heard) ∧
      (done.2.2.failed = true → done.1 = r) ∧ done.1.locked = r.locked ∧
      done.2.2.isRefused = r.locked := by
  intro done
  have hfirst : (⟨world, [], []⟩ : Scene L V σ).Vain := nofun
  have hplain : r.use (e.quiet world) = (done.1, done.2.2, done.2.1.heard) ∧ done.2.1.Vain := by
    cases e with
    | register l id => exact ⟨rfl, hfirst⟩
    | remove l => exact ⟨rfl, hfirst⟩
    | count => exact ⟨rfl, hfirst⟩
    | visit id s =>
      have h := r.visit_scripted id s hfirst
      exact ⟨h.same .value, h.vain⟩
    | notify id s =>
      have h := r.notify_scripted id s hfirst
      exact ⟨h.same .number, h.vain⟩
    | publish id value s =>
      have h := r.publish_scripted id value s hfirst
      exact ⟨h.same .number, h.vain⟩
  obtain ⟨huse, hvain⟩ := hplain
  have hsettled := r.use_settled (e.quiet world)
  rw [huse] at hsettled
  exact ⟨hvain, huse, hsettled⟩

/-- A listener that tries to bind another one, to publish and to count, and counts what is
refused. -/
def meddle (_ value world : Nat) : Script Nat Nat Nat Unit :=
  .call world (.register 7 9 : Request Nat Nat Nat Unit) fun world first =>
    .call world (.publish 71 (value + 1) fun _ _ r world => (r, world, ()) :
        Request Nat Nat Nat Unit) fun world second =>
      .call world (.count : Request Nat Nat Nat Unit) fun world third =>
        .finish (world + [first, second, third].countP Reply.isRefused) ()

example :
    let r := ((Registry.new 2 2 : Registry Nat Nat).register 1 71).1
    let done := request (Errand.publish 71 5 meddle : Errand Nat Nat Nat Unit).request r ⟨0, [], []⟩
    done.2.1.heard = [(1, 5)] ∧ done.2.1.world = 3 ∧
      done.2.1.nested.map (·.refused) = [true, true, true] := by
  decide

end Registry

end GimbalLink
