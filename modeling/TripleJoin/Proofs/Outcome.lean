import TripleJoin.Store
/-!
Runs that end well whatever the journal holds: such a run yields one result from every journal, so
what came before it is never seen in the result.
-/
namespace TripleJoin

namespace Run

variable {ε ε' α β : Type}

/-- The run ends without an error and with this result, from every journal. -/
def Yields (run : Run ε α) (result : α) : Prop :=
  ∀ journal : Journal, ∃ after, run.run.run journal = (.ok result, after)

theorem yields_pure (result : α) : Yields (pure result : Run ε α) result := by
  intro journal
  exact ⟨journal, rfl⟩

theorem Yields.bind {first : Run ε α} {next : α → Run ε β} {a : α} {b : β}
    (start : first.Yields a) (rest : (next a).Yields b) : (first >>= next).Yields b := by
  intro journal
  obtain ⟨middle, first_run⟩ := start journal
  obtain ⟨after, next_run⟩ := rest middle
  refine ⟨after, ?_⟩
  simp only [ExceptT.run_bind, StateT.run_bind]
  rw [first_run]
  exact next_run

theorem Yields.map {run : Run ε α} {a : α} (yields : run.Yields a) (f : α → β) :
    (f <$> run).Yields (f a) := by
  rw [← bind_pure_comp]
  exact yields.bind (yields_pure (f a))

/-- A step that only reads or writes the journal leaves the result to what follows, as long as that
    does not depend on what was read. -/
theorem Yields.after_step {step : Logged α} {next : α → Run ε β} {b : β}
    (rest : ∀ a, (next a).Yields b) : ((liftM step : Run ε α) >>= next).Yields b := by
  intro journal
  obtain ⟨after, next_run⟩ := rest (step.run journal).1 (step.run journal).2
  exact ⟨after, next_run⟩

theorem Yields.after_known {step : Logged α} {next : α → Run ε β} {a : α} {b : β}
    (known : ∀ journal, (step.run journal).1 = a) (rest : (next a).Yields b) :
    ((liftM step : Run ε α) >>= next).Yields b := by
  intro journal
  obtain ⟨after, next_run⟩ := rest (step.run journal).2
  refine ⟨after, ?_⟩
  change (next (step.run journal).1).run.run (step.run journal).2 = _
  rw [known]
  exact next_run

theorem Yields.adapt {run : Run ε α} {a : α} (yields : run.Yields a) (f : ε → ε') :
    Yields (ExceptT.adapt f run) a := by
  intro journal
  obtain ⟨after, ends⟩ := yields journal
  refine ⟨after, ?_⟩
  change (Except.mapError f <$> run.run).run journal = _
  rw [StateT.run_map, ends]
  rfl

theorem yields_ofExcept (result : α) : Yields (Run.ofExcept (ε := ε) (.ok result)) result := by
  intro journal
  exact ⟨journal, rfl⟩

/-- From every journal, an error that ends the run is of this kind. -/
def ErrsWithin (run : Run ε α) (kind : ε → Prop) : Prop :=
  ∀ journal error, (run.run.run journal).1 = .error error → kind error

section

variable {kind : ε → Prop}

theorem errsWithin_pure (result : α) : ErrsWithin (pure result : Run ε α) kind :=
  fun _ _ absurd => nomatch absurd

theorem ErrsWithin.bind {first : Run ε α} {next : α → Run ε β} (start : first.ErrsWithin kind)
    (rest : ∀ a, (next a).ErrsWithin kind) : (first >>= next).ErrsWithin kind := by
  intro journal error ends
  simp only [ExceptT.run_bind, StateT.run_bind] at ends
  have here := start journal
  cases ran : first.run.run journal with
  | mk result middle =>
    rw [ran] at ends here
    cases result with
    | error cause =>
      have same : cause = error := Except.error.inj ends
      exact same ▸ here cause rfl
    | ok a => exact rest a middle error ends

theorem ErrsWithin.map {run : Run ε α} (within : run.ErrsWithin kind) (f : α → β) :
    (f <$> run).ErrsWithin kind := by
  rw [← bind_pure_comp]
  exact within.bind fun a => errsWithin_pure (f a)

theorem ErrsWithin.after_step {step : Logged α} {next : α → Run ε β}
    (rest : ∀ a, (next a).ErrsWithin kind) :
    ((liftM step : Run ε α) >>= next).ErrsWithin kind :=
  fun journal error ends => rest (step.run journal).1 (step.run journal).2 error ends

theorem errsWithin_adapt (run : Run ε' α) {f : ε' → ε} (each : ∀ error, kind (f error)) :
    ErrsWithin (ExceptT.adapt f run) kind := by
  intro journal error ends
  change Except.mapError f (run.run.run journal).1 = .error error at ends
  cases result : (run.run.run journal).1 with
  | ok a =>
    rw [result] at ends
    cases ends
  | error cause =>
    rw [result] at ends
    cases ends
    exact each cause

theorem errsWithin_filterMapM {step : α → Run ε (Option β)} (xs : List α)
    (each : ∀ x, (step x).ErrsWithin kind) : (xs.filterMapM step).ErrsWithin kind := by
  induction xs with
  | nil => exact errsWithin_pure []
  | cons x xs ih =>
    rw [List.filterMapM_cons]
    refine (each x).bind fun found => ?_
    cases found with
    | none => exact ih
    | some y => exact ih.bind fun ys => errsWithin_pure (y :: ys)

end

theorem Yields.unique {run : Run ε α} {a b : α} (first : run.Yields a) (second : run.Yields b) :
    a = b := by
  obtain ⟨after, ends⟩ := first Journal.empty
  obtain ⟨after', ends'⟩ := second Journal.empty
  have same := ends.symm.trans ends'
  exact Except.ok.inj (Prod.mk.inj same).1

end Run

namespace Source

/-- The source always gives the same answer to a request. -/
def Answers (source : Source) (answers : Request → List Triple) : Prop :=
  ∀ earlier request, source.answer earlier request = .ok (answers request)

end Source

end TripleJoin
