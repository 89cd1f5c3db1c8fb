import TripleJoin.Proofs.Outcome
/-!
Runs in lockstep. Two such runs, started from journals that tell the same, end with the same result
and with journals that tell the same again. A journal tells which requests were made, what constraints
were asked and every event, but neither the name of a store nor the calls of filters.
-/
namespace TripleJoin

/-- What an entry tells: a request of any store, and nothing for the call of a filter. -/
def Entry.told : Entry → Option Entry
  | .request _ wanted _ => some (.request "" wanted false)
  | .filter .. => none
  | entry => some entry

namespace Journal

/-- Both tell the same and count the same number of nodes. -/
structure Agrees (journal other : Journal) : Prop where
  told : journal.entries.toList.filterMap Entry.told = other.entries.toList.filterMap Entry.told
  nodes : journal.nodes = other.nodes

variable {journal other : Journal}

theorem Agrees.refl (journal : Journal) : journal.Agrees journal := ⟨rfl, rfl⟩

theorem Agrees.symm (agrees : journal.Agrees other) : other.Agrees journal :=
  ⟨agrees.told.symm, agrees.nodes.symm⟩

theorem filterMap_told_push (entries : Array Entry) (entry : Entry) :
    (entries.push entry).toList.filterMap Entry.told =
      entries.toList.filterMap Entry.told ++ entry.told.toList := by
  rw [Array.toList_push, List.filterMap_append]
  cases told : entry.told <;> simp [told]

theorem Agrees.record (agrees : journal.Agrees other) {entry entry' : Entry}
    (same : entry.told = entry'.told) : (journal.record entry).Agrees (other.record entry') := by
  refine ⟨?_, agrees.nodes⟩
  rw [Journal.record, Journal.record, filterMap_told_push, filterMap_told_push, agrees.told, same]

theorem Agrees.record_untold (agrees : journal.Agrees other) {entry : Entry}
    (untold : entry.told = none) : (journal.record entry).Agrees other := by
  refine ⟨?_, agrees.nodes⟩
  rw [Journal.record, filterMap_told_push, untold, Option.toList_none, List.append_nil, agrees.told]

theorem Agrees.recordRequest (agrees : journal.Agrees other) (source exact : Source)
    (request : Request) :
    (journal.recordRequest source.name request source.watched).Agrees
      (other.recordRequest exact.name request exact.watched) := by
  refine ⟨?_, agrees.nodes⟩
  rw [Journal.recordRequest, Journal.recordRequest, filterMap_told_push, filterMap_told_push,
    agrees.told]
  rfl

end Journal

/-- From journals that agree, both steps come to the same and leave journals that agree. -/
def Logged.InStep {α : Type} (first second : Logged α) : Prop :=
  ∀ journal other : Journal, journal.Agrees other →
    (first.run journal).1 = (second.run other).1 ∧
      (first.run journal).2.Agrees (second.run other).2

namespace Logged

variable {α β : Type}

theorem inStep_pure (result : α) : InStep (pure result) (pure result) :=
  fun _ _ agrees => ⟨rfl, agrees⟩

theorem InStep.bind {first second : Logged α} {next next' : α → Logged β}
    (start : InStep first second) (rest : ∀ a, InStep (next a) (next' a)) :
    InStep (first >>= next) (second >>= next') := by
  intro journal other agrees
  obtain ⟨same, after⟩ := start journal other agrees
  rw [StateT.run_bind, StateT.run_bind]
  change ((next (first.run journal).1).run (first.run journal).2).1 =
      ((next' (second.run other).1).run (second.run other).2).1 ∧
    ((next (first.run journal).1).run (first.run journal).2).2.Agrees
      ((next' (second.run other).1).run (second.run other).2).2
  rw [same]
  exact rest _ _ _ after

theorem inStep_note {entry entry' : Entry} (same : entry.told = entry'.told) :
    InStep (note entry) (note entry') :=
  fun _ _ agrees => ⟨rfl, agrees.record same⟩

theorem inStep_untold {entry : Entry} (untold : entry.told = none) :
    InStep (note entry) (pure ()) :=
  fun _ _ agrees => ⟨rfl, agrees.record_untold untold⟩

theorem inStep_report (event : Event) : InStep (report event) (report event) :=
  inStep_note rfl

theorem inStep_countNode : InStep countNode countNode :=
  fun _ _ agrees => ⟨rfl, agrees.told, congrArg (· + 1) agrees.nodes⟩

theorem inStep_nodesSoFar : InStep nodesSoFar nodesSoFar :=
  fun _ _ agrees => ⟨agrees.nodes, agrees⟩

end Logged

namespace Run

variable {ε ε' α β γ : Type}

/-- The runs end with the same result or the same error, and tell the same on the way. -/
def InStep (first second : Run ε α) : Prop := Logged.InStep first.run second.run

theorem inStep_pure (result : α) : InStep (pure result : Run ε α) (pure result) :=
  Logged.inStep_pure _

theorem inStep_ofExcept (result : Except ε α) : InStep (ofExcept result) (ofExcept result) :=
  Logged.inStep_pure result

theorem InStep.symm {first second : Run ε α} (inStep : first.InStep second) :
    second.InStep first := by
  intro journal other agrees
  obtain ⟨same, after⟩ := inStep other journal agrees.symm
  exact ⟨same.symm, after.symm⟩

theorem InStep.trans {first second third : Run ε α} (left : first.InStep second)
    (right : second.InStep third) : first.InStep third := by
  intro journal other agrees
  obtain ⟨same, after⟩ := left journal other agrees
  obtain ⟨same', after'⟩ := right other other (.refl other)
  exact ⟨same.trans same', after.told.trans after'.told, after.nodes.trans after'.nodes⟩

theorem InStep.bind {first second : Run ε α} {next next' : α → Run ε β}
    (start : first.InStep second) (rest : ∀ a, (next a).InStep (next' a)) :
    (first >>= next).InStep (second >>= next') := by
  rw [InStep, ExceptT.run_bind, ExceptT.run_bind]
  apply Logged.InStep.bind start
  intro result
  cases result with
  | error cause => exact Logged.inStep_pure _
  | ok a => exact rest a

theorem InStep.after_step {step step' : Logged α} {next next' : α → Run ε β}
    (steps : step.InStep step') (rest : ∀ a, (next a).InStep (next' a)) :
    ((liftM step : Run ε α) >>= next).InStep ((liftM step' : Run ε α) >>= next') :=
  Logged.InStep.bind steps rest

theorem inStep_step {step step' : Logged α} (steps : step.InStep step') :
    InStep (liftM step : Run ε α) (liftM step') :=
  Logged.InStep.bind steps fun _ => Logged.inStep_pure _

theorem InStep.yields {first second : Run ε α} (inStep : first.InStep second) {a : α}
    (ends : second.Yields a) : first.Yields a := by
  intro journal
  obtain ⟨after, ran⟩ := ends journal
  obtain ⟨same, _⟩ := inStep journal journal (.refl journal)
  rw [ran] at same
  exact ⟨(first.run.run journal).2, Prod.ext same rfl⟩

/-- A run that comes to a known result and tells nothing leaves all to what follows. -/
theorem InStep.skip {first : Run ε α} {next : α → Run ε β} {second : Run ε β} {a : α}
    (known : first.InStep (pure a)) (rest : (next a).InStep second) :
    (first >>= next).InStep second := by
  intro journal other agrees
  obtain ⟨same, after⟩ := known journal other agrees
  have ran : first.run.run journal = (.ok a, (first.run.run journal).2) := Prod.ext same rfl
  rw [ExceptT.run_bind, StateT.run_bind, ran]
  exact rest _ _ after

theorem InStep.map {first second : Run ε α} (inStep : first.InStep second) (f : α → β) :
    (f <$> first).InStep (f <$> second) := by
  rw [← bind_pure_comp, ← bind_pure_comp]
  exact inStep.bind fun a => inStep_pure (f a)

theorem InStep.bind_map {first second : Run ε α} {next : α → Run ε γ} {next' : α → Run ε β}
    {f : β → γ} (start : first.InStep second) (rest : ∀ a, (next a).InStep (f <$> next' a)) :
    (first >>= next).InStep (f <$> (second >>= next')) := by
  rw [map_bind]
  exact start.bind rest

theorem InStep.after_step_map {step step' : Logged α} {next : α → Run ε γ}
    {next' : α → Run ε β} {f : β → γ} (steps : step.InStep step')
    (rest : ∀ a, (next a).InStep (f <$> next' a)) :
    ((liftM step : Run ε α) >>= next).InStep (f <$> ((liftM step' : Run ε α) >>= next')) := by
  rw [map_bind]
  exact InStep.after_step steps rest

/-- What follows may go on from a result and from the image of a result. -/
theorem InStep.bind_of_map {first : Run ε γ} {second : Run ε α} {f : α → γ}
    {next : γ → Run ε β} {next' : α → Run ε β} (start : first.InStep (f <$> second))
    (rest : ∀ a, (next (f a)).InStep (next' a)) : (first >>= next).InStep (second >>= next') := by
  intro journal other agrees
  obtain ⟨same, after⟩ := start journal other agrees
  rw [← bind_pure_comp, ExceptT.run_bind, StateT.run_bind] at same after
  rw [ExceptT.run_bind, ExceptT.run_bind, StateT.run_bind, StateT.run_bind]
  cases ran : first.run.run journal with
  | mk result middle =>
    cases ran' : second.run.run other with
    | mk result' middle' =>
      rw [ran, ran'] at same after
      cases result' with
      | error cause =>
        cases same
        exact ⟨rfl, after⟩
      | ok a =>
        cases same
        exact rest a middle middle' after

theorem InStep.adapt {first second : Run ε α} (inStep : first.InStep second) (f : ε → ε') :
    InStep (ExceptT.adapt f first) (ExceptT.adapt f second) := by
  have mapped : ∀ run : Run ε α, (ExceptT.adapt f run).run =
      run.run >>= fun result => pure (Except.mapError f result) := by
    intro run
    rw [bind_pure_comp]
    rfl
  rw [InStep, mapped, mapped]
  exact Logged.InStep.bind inStep fun result => Logged.inStep_pure _

/-- Elements that come to nothing may be left out. -/
theorem inStep_filterMapM {step step' : α → Run ε (Option β)} (keep : α → Bool) {xs : List α}
    (kept : ∀ x ∈ xs, keep x = true → (step x).InStep (step' x))
    (idle : ∀ x ∈ xs, keep x = false → (step x).InStep (pure none)) :
    (xs.filterMapM step).InStep ((xs.filter keep).filterMapM step') := by
  induction xs with
  | nil => exact inStep_pure []
  | cons x xs ih =>
    rw [List.forall_mem_cons] at kept idle
    have rest := ih kept.2 idle.2
    rw [List.filterMapM_cons]
    cases chosen : keep x with
    | true =>
      rw [List.filter_cons_of_pos chosen, List.filterMapM_cons]
      refine (kept.1 chosen).bind fun found => ?_
      cases found with
      | none => exact rest
      | some y => exact rest.bind fun ys => inStep_pure (y :: ys)
    | false =>
      rw [List.filter_cons_of_neg (by simp [chosen])]
      exact (idle.1 chosen).skip rest

end Run

end TripleJoin
