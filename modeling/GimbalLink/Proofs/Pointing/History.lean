import GimbalLink.Pointing.Pointer
import GimbalLink.Run
/-
  Where the kept target of a pointer comes from.

  A pointer remembers one aim. After any run it is the one of the last vehicle for which
  the mode of that moment gave a target; a vehicle for which it gave none leaves no trace.

  What is proved:
    1. `perform_last`: one operation keeps the aim that it sights, or else the old one.
    2. `run_last`: a run keeps the last aim that was sighted in it.
    3. `of_mem_sights`: what was sighted was the target of the mode at a moment of the run.
-/
namespace GimbalLink

namespace Pointer

/-- The vehicle that an operation looks at. -/
def Operation.vehicle? : Operation → Option Vehicle
  | .resolve v => some v
  | .cycle v => some v
  | _ => none

/-- An aim that could be resolved, and the vehicle it was resolved for. -/
structure Sighting where
  aim : Aim
  vehicle : Vehicle

/-- What an operation sights: the target that the mode gives for the vehicle it looks at. -/
def sight (s : Settings) (p : Pointer) (op : Operation) : Option Sighting :=
  op.vehicle?.bind fun v => (p.freshTarget s v).map fun target => ⟨⟨p.mode, target⟩, v⟩

/-- What a run sights, in order. -/
def sights (s : Settings) : Pointer → List Operation → List Sighting
  | _, [] => []
  | p, op :: rest => (sight s p op).toList ++ sights s (perform s p op).1 rest

variable {s : Settings}

theorem kept_eq (p : Pointer) (s : Settings) (v : Vehicle) :
    p.kept s v = ((p.freshTarget s v).map (Aim.mk p.mode)).or p.last := by
  unfold kept
  cases p.freshTarget s v with
  | none => rfl
  | some target => rfl

theorem cycle_last (p : Pointer) (s : Settings) (v : Vehicle) :
    (p.cycle s v).1.last = p.kept s v := by
  simp only [cycle, resolve]
  cases p.kept s v with
  | none => rfl
  | some aim => rfl

theorem perform_last (p : Pointer) (op : Operation) :
    (perform s p op).1.last = ((sight s p op).map Sighting.aim).or p.last := by
  have seen (v : Vehicle) :
      p.kept s v = (((p.freshTarget s v).map fun t => Sighting.mk ⟨p.mode, t⟩ v).map
        Sighting.aim).or p.last := by
    rw [kept_eq, Option.map_map]
    rfl
  cases op with
  | resolve v => exact seen v
  | cycle v => exact (cycle_last p s v).trans (seen v)
  | setMode mode => rfl
  | setExternal a => rfl
  | setInterest l => rfl
  | commandFor aim => rfl

theorem run_last (p : Pointer) (ops : List Operation) :
    (run (perform s) p ops).1.last = ((sights s p ops).getLast?.map Sighting.aim).or p.last := by
  induction ops generalizing p with
  | nil => rfl
  | cons op rest ih =>
    calc (run (perform s) p (op :: rest)).1.last
        = ((sights s (perform s p op).1 rest).getLast?.map Sighting.aim).or
            (perform s p op).1.last := ih _
      _ = ((sights s p (op :: rest)).getLast?.map Sighting.aim).or p.last := by
        rw [perform_last, sights, List.getLast?_append, Option.map_or, Option.or_assoc]
        cases sight s p op with
        | none => rfl
        | some x => rfl

theorem of_mem_sights {p : Pointer} {ops : List Operation} {x : Sighting}
    (h : x ∈ sights s p ops) :
    ∃ q : Pointer, q.mode = x.aim.mode ∧ q.freshTarget s x.vehicle = some x.aim.target := by
  induction ops generalizing p with
  | nil => exact absurd h List.not_mem_nil
  | cons op rest ih =>
    obtain h | h := List.mem_append.1 h
    · obtain ⟨v, -, hv⟩ := Option.bind_eq_some_iff.1 (Option.mem_toList.1 h)
      obtain ⟨target, ht, rfl⟩ := Option.map_eq_some_iff.1 hv
      exact ⟨p, rfl, ht⟩
    · exact ih h

end Pointer

end GimbalLink
