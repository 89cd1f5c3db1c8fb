import TripleJoin.Proofs.Outcome
/-!
Partial correctness. A run ensures a property if every result that it ends with has it, from
whatever journal it started; a run that ends in an error ensures everything. Where a computation
cannot fail, its result always has the property.
-/
namespace TripleJoin

section

variable {σ α β : Type} {p : α → Prop} {q : β → Prop}

/-- The computation gives a result with the property from every state. -/
def Always (computation : StateM σ α) (p : α → Prop) : Prop :=
  ∀ state, p (computation.run state).1

theorem always_pure {a : α} (holds : p a) : Always (pure a : StateM σ α) p :=
  fun _ => holds

theorem Always.bind {first : StateM σ α} {next : α → StateM σ β} (start : Always first p)
    (rest : ∀ a, p a → Always (next a) q) : Always (first >>= next) q :=
  fun state => rest _ (start state) (first.run state).2

theorem always_bind {first : StateM σ α} {next : α → StateM σ β} (rest : ∀ a, Always (next a) q) :
    Always (first >>= next) q :=
  fun state => rest _ (first.run state).2

end

namespace Run

variable {ε α β : Type} {p : α → Prop} {q : β → Prop}

theorem bind_eq_ok {first : Run ε α} {next : α → Run ε β} {journal : Journal} {b : β}
    (success : ((first >>= next).run.run journal).1 = .ok b) :
    ∃ a, (first.run.run journal).1 = .ok a ∧
      ((next a).run.run (first.run.run journal).2).1 = .ok b := by
  simp only [ExceptT.run_bind, StateT.run_bind] at success
  cases ran : first.run.run journal with
  | mk result middle =>
    rw [ran] at success
    cases result with
    | error cause => cases success
    | ok a => exact ⟨a, rfl, success⟩

theorem bind_of_ok {first : Run ε α} {next : α → Run ε β} {journal : Journal} {a : α}
    (ends : (first.run.run journal).1 = .ok a) :
    (first >>= next).run.run journal = (next a).run.run (first.run.run journal).2 := by
  simp only [ExceptT.run_bind, StateT.run_bind]
  cases ran : first.run.run journal with
  | mk result middle =>
    rw [ran] at ends
    cases ends
    rfl

theorem Yields.always {run : Run ε α} {a : α} (yields : run.Yields a) :
    Always run.run fun result => result = .ok a := by
  intro journal
  obtain ⟨_, ends⟩ := yields journal
  rw [ends]

theorem Yields.eq_of_ok {run : Run ε α} {a b : α} (yields : run.Yields a) {journal : Journal}
    (ends : (run.run.run journal).1 = .ok b) : b = a := by
  rw [yields.always journal] at ends
  exact (Except.ok.inj ends).symm

def Ensures (run : Run ε α) (p : α → Prop) : Prop :=
  ∀ journal a, (run.run.run journal).1 = .ok a → p a

theorem ensures_pure {a : α} (holds : p a) : Ensures (pure a : Run ε α) p := by
  intro journal result ends
  cases ends
  exact holds

theorem Ensures.bind {first : Run ε α} {next : α → Run ε β} (start : first.Ensures p)
    (rest : ∀ a, p a → (next a).Ensures q) : (first >>= next).Ensures q := by
  intro journal b ends
  obtain ⟨a, here, later⟩ := bind_eq_ok ends
  exact rest a (start journal a here) _ b later

/-- The weakest rule: nothing is asked of the first run. -/
theorem ensures_bind {first : Run ε α} {next : α → Run ε β} (rest : ∀ a, (next a).Ensures q) :
    (first >>= next).Ensures q := by
  have start : first.Ensures fun _ => True := fun _ _ _ => trivial
  exact start.bind fun a _ => rest a

theorem Ensures.map {run : Run ε α} {f : α → β} (ensures : run.Ensures fun a => q (f a)) :
    (f <$> run).Ensures q := by
  rw [← bind_pure_comp]
  exact ensures.bind fun _ holds => ensures_pure holds

theorem ensures_filterMapM {step : α → Run ε (Option β)} (xs : List α)
    (each : ∀ x, (step x).Ensures fun found => ∀ y ∈ found, q y) :
    (xs.filterMapM step).Ensures fun ys => ∀ y ∈ ys, q y := by
  induction xs with
  | nil => exact ensures_pure (List.forall_mem_nil q)
  | cons x xs ih =>
    rw [List.filterMapM_cons]
    refine (each x).bind fun found holds => ?_
    cases found with
    | none => exact ih
    | some y =>
      refine ih.bind fun ys rest => ensures_pure ?_
      exact List.forall_mem_cons.mpr ⟨holds y rfl, rest⟩

end Run

end TripleJoin
