import GimbalLink.Proofs.Listeners.Refinement
/-
  Listeners that act on the world.

  A listener may do anything with the registry and the world when it is handed a value. Those
  of an engine do nothing with the registry: they only act on what is around it
  (`Registry.acts`). For such listeners a call comes to what it does with listeners that just
  take down what they are handed, with each notice acted on, one after the other.

  What is proved:
    1. `Registry.visit_acts`, `Registry.notify_acts`, `Registry.publish_acts`: that is so for
       each call that hands something out, whether or not the lock is free.
    2. `Registry.heard_publish`: what is handed out when a value is published is that value,
       once for each listener that is counted.
-/
namespace GimbalLink

namespace Registry

variable {L V σ α : Type}

/-- A listener that acts on the world and leaves the registry alone. -/
def acts (act : L → V → σ → σ) : L → V → Callback L V σ Unit := fun l value r world =>
  (r, act l value world, ())

/-- The world once each of some notices was acted on. -/
def tell (act : L → V → σ → σ) (world : σ) (notices : List (L × V)) : σ :=
  notices.foldl (fun world x => act x.1 x.2 world) world

variable (act : L → V → σ → σ)

theorem handAll_acts (value : V) (ls : List L) (r : Registry L V) (world : σ) :
    handAll (acts act) value ls r world = (r, tell act world (ls.map (·, value))) := by
  induction ls generalizing world with
  | nil => rfl
  | cons l rest ih => exact ih (act l value world)

theorem notify_acts (r : Registry L V) (world : σ) (id : UInt8) :
    r.notify world id (acts act) =
      ((r.notify [] id hear).1, tell act world (r.notify [] id hear).2.1,
        (r.notify [] id hear).2.2) := by
  cases hl : r.locked with
  | true =>
    rw [notify_of_locked world hl, notify_of_locked [] hl]
    rfl
  | false =>
    unfold notify
    rw [hl]
    cases r.entry? id with
    | none => rfl
    | some e =>
      simp only [handAll_acts, handAll_hear, List.nil_append]
      rfl

variable [Inhabited V]

theorem visit_acts (r : Registry L V) (world : σ) (id : UInt8) (f : V → α × V) :
    r.visit world id (fun value r world => (r, world, f value)) =
      ((r.visit ([] : List (L × V)) id fun value r heard => (r, heard, f value)).1, world,
        (r.visit ([] : List (L × V)) id fun value r heard => (r, heard, f value)).2.2) := by
  unfold visit
  split
  · rfl
  · cases r.allocate id <;> rfl

theorem publish_acts (r : Registry L V) (world : σ) (id : UInt8) (value : V) :
    r.publish world id value (acts act) =
      ((r.publish [] id value hear).1, tell act world (r.publish [] id value hear).2.1,
        (r.publish [] id value hear).2.2) := by
  have hw := r.visit_acts world id fun _ => ((), value)
  have hn : (r.visit ([] : List (L × V)) id fun _ r heard => (r, heard, ((), value))).2.1 = [] := by
    rw [visit_acts]
  unfold publish
  rw [hw]
  generalize r.visit ([] : List (L × V)) id _ = visited at hn ⊢
  obtain ⟨r', heard, result⟩ := visited
  obtain rfl : heard = [] := hn
  cases result with
  | error e => rfl
  | ok u => exact notify_acts act r' world id

/-- What is handed out is the value that is published, once for each listener counted. -/
theorem heard_publish (r : Registry L V) (id : UInt8) (value : V) :
    (∃ ls : List L,
        (r.publish [] id value hear).2 = (ls.map (·, value), .ok ls.length)) ∨
      ∃ e, (r.publish [] id value hear).2 = ([], .error e) := by
  cases hl : r.locked with
  | true =>
    rw [publish_of_locked [] hl]
    exact .inr ⟨_, rfl⟩
  | false =>
    rw [publish_eq hl]
    cases ha : r.allocate id with
    | none => exact .inr ⟨_, rfl⟩
    | some r' =>
      have hs : (r'.store id value).locked = false := (locked_of_allocate ha).trans hl
      simp only [notify_eq hs, Board.notify, value?_store_of_allocate ha]
      refine .inl ⟨(r'.store id value).listenersOf id, ?_⟩
      rw [← notices_board, List.length_map]

end Registry

end GimbalLink
