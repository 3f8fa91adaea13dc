/-
  Runs.

  A part of the link that has a state is used by operations, and each gives an
  outcome. A run is a sequence of operations from a first state: the state it ends
  in, and the outcomes in order.

  What is proved: a run may be cut anywhere (`run_append`, `run_take`), it gives one outcome
  for each operation (`length_run`), an outcome of the run is that of one operation in the
  state before it (`mem_run_iff`), what every operation keeps, the run keeps
  (`run_invariant`), a field that operations overwrite or leave alone holds what was
  written last (`run_lastWrite`, `run_lastOperation`), where one operation refines its
  specification, a run does (`run_refines`), and where every operation can be performed,
  so can the run (`run?_eq`).
-/
namespace GimbalLink

variable {σ ι ο : Type}

/-- Performs operations one after the other. -/
def run (perform : σ → ι → σ × ο) : σ → List ι → σ × List ο
  | s, [] => (s, [])
  | s, i :: rest =>
    let (s, outcome) := perform s i
    let (s, outcomes) := run perform s rest
    (s, outcome :: outcomes)

theorem run_append (perform : σ → ι → σ × ο) (s : σ) (a b : List ι) :
    run perform s (a ++ b) =
      ((run perform (run perform s a).1 b).1,
        (run perform s a).2 ++ (run perform (run perform s a).1 b).2) := by
  induction a generalizing s with
  | nil => rfl
  | cons i rest ih => simp only [List.cons_append, run, ih]

theorem length_run (perform : σ → ι → σ × ο) (s : σ) (is : List ι) :
    (run perform s is).2.length = is.length := by
  induction is generalizing s with
  | nil => rfl
  | cons i rest ih => simp only [run, List.length_cons, ih]

theorem mem_run_iff {perform : σ → ι → σ × ο} {s : σ} {is : List ι} {o : ο} :
    o ∈ (run perform s is).2 ↔
      ∃ before i rest, is = before ++ i :: rest ∧ (perform (run perform s before).1 i).2 = o := by
  constructor
  · intro h
    induction is generalizing s with
    | nil => exact absurd h List.not_mem_nil
    | cons i rest ih =>
      obtain rfl | h := List.mem_cons.1 h
      · exact ⟨[], i, rest, rfl, rfl⟩
      · obtain ⟨before, j, after, rfl, ho⟩ := ih h
        exact ⟨i :: before, j, after, rfl, ho⟩
  · rintro ⟨before, i, rest, rfl, rfl⟩
    rw [run_append]
    exact List.mem_append_right _ List.mem_cons_self

/-- What comes of the first operations does not depend on the others. -/
theorem run_take (perform : σ → ι → σ × ο) (s : σ) (is : List ι) (n : Nat) :
    (run perform s (is.take n)).2 = (run perform s is).2.take n := by
  induction is generalizing s n with
  | nil => rw [List.take_nil]; exact List.take_nil.symm
  | cons i rest ih =>
    cases n with
    | zero => rfl
    | succ n => simp only [List.take_succ_cons, run, ih]

/-- What the operations of a run wrote, in order, if `write` says what each wrote. -/
def writes {α : Type} (write : ι → ο → Option α) (is : List ι) (os : List ο) : List α :=
  (List.zipWith write is os).filterMap id

theorem writes_cons {α : Type} (write : ι → ο → Option α) (i : ι) (is : List ι) (o : ο)
    (os : List ο) : writes write (i :: is) (o :: os) = (write i o).toList ++ writes write is os := by
  simp only [writes, List.zipWith_cons_cons, List.filterMap_cons]
  cases write i o <;> rfl

/-- Where the outcomes do not matter, what is written is told by the operations. -/
theorem writes_of_operation {α : Type} (write : ι → Option α) (is : List ι) {os : List ο}
    (h : os.length = is.length) : writes (fun i _ => write i) is os = is.filterMap write := by
  induction is generalizing os with
  | nil => rfl
  | cons i rest ih =>
    cases os with
    | nil => cases h
    | cons o os =>
      have hr := ih (Nat.succ.inj h)
      simp only [writes, List.zipWith_cons_cons, List.filterMap_cons, id_eq] at hr ⊢
      rw [hr]

theorem run_lastWrite {α : Type} {perform : σ → ι → σ × ο} (field : σ → α)
    (write : ι → ο → Option α)
    (step : ∀ s i, field (perform s i).1 = (write i (perform s i).2).getD (field s)) (s : σ)
    (is : List ι) :
    field (run perform s is).1 =
      (writes write is (run perform s is).2).getLast?.getD (field s) := by
  induction is generalizing s with
  | nil => rfl
  | cons i rest ih =>
    calc field (run perform s (i :: rest)).1
        = (writes write rest (run perform (perform s i).1 rest).2).getLast?.getD
            (field (perform s i).1) := ih _
      _ = (writes write (i :: rest) (run perform s (i :: rest)).2).getLast?.getD (field s) := by
        rw [step]
        simp only [writes, run, List.zipWith_cons_cons, List.filterMap_cons]
        cases write i (perform s i).2 with
        | none => rfl
        | some a =>
          simp only [id_eq, List.getLast?_cons, Option.getD_some]

/-- The same of a field that the operations alone tell what they write to. -/
theorem run_lastOperation {α : Type} {perform : σ → ι → σ × ο} (field : σ → α)
    (write : ι → Option α)
    (step : ∀ s i, field (perform s i).1 = (write i).getD (field s)) (s : σ) (is : List ι) :
    field (run perform s is).1 = (is.filterMap write).getLast?.getD (field s) := by
  rw [run_lastWrite field (fun i _ => write i) step, writes_of_operation _ _ (length_run _ _ _)]

theorem run_refines {τ : Type} {perform : σ → ι → σ × ο} {spec : τ → ι → τ × ο} (view : σ → τ)
    {P : σ → Prop}
    (step : ∀ s i, P s → P (perform s i).1 ∧
      spec (view s) i = (view (perform s i).1, (perform s i).2))
    {s : σ} (first : P s) (is : List ι) :
    P (run perform s is).1 ∧
      run spec (view s) is = (view (run perform s is).1, (run perform s is).2) := by
  induction is generalizing s with
  | nil => exact ⟨first, rfl⟩
  | cons i rest ih =>
    obtain ⟨hP, hi⟩ := step s i first
    obtain ⟨hR, hr⟩ := ih hP
    refine ⟨hR, ?_⟩
    simp only [run, hi, hr]

theorem run_invariant {perform : σ → ι → σ × ο} {P : σ → Prop}
    (keeps : ∀ s i, P s → P (perform s i).1) {s : σ} (first : P s) (is : List ι) :
    P (run perform s is).1 := by
  induction is generalizing s with
  | nil => exact first
  | cons i rest ih => exact ih (keeps s i first)

/-- Performs operations one after the other, provided each of them can be performed. -/
def run? (perform? : σ → ι → Option (σ × ο)) : σ → List ι → Option (σ × List ο)
  | s, [] => some (s, [])
  | s, i :: rest => do
    let (s, outcome) ← perform? s i
    let (s, outcomes) ← run? perform? s rest
    return (s, outcome :: outcomes)

theorem run?_eq {perform? : σ → ι → Option (σ × ο)} {perform : σ → ι → σ × ο} {P : σ → Prop}
    (step : ∀ s i, P s → perform? s i = some (perform s i) ∧ P (perform s i).1) {s : σ}
    (first : P s) (is : List ι) : run? perform? s is = some (run perform s is) := by
  induction is generalizing s with
  | nil => rfl
  | cons i rest ih =>
    obtain ⟨hi, hP⟩ := step s i first
    simp [run?, run, hi, ih hP]

end GimbalLink
