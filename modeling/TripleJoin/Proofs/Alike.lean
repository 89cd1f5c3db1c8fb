import TripleJoin.Proofs.Outcome
/-!
Runs that end alike. What a run comes to depends on its journal only through the answers that the
source gives from there on: from journals after which these are the same, two such runs end with the
same result or error, and leave such journals behind. Events may differ, and so may counts of nodes.
-/
namespace TripleJoin

namespace Source

/-- Whatever is asked from here on, the answers after both journals are the same. -/
def Alike (source : Source) (journal other : Journal) : Prop :=
  ∀ more request, source.answer (journal.callsTo source.name + more) request =
    source.answer (other.callsTo source.name + more) request

variable {source : Source} {journal other : Journal}

theorem Alike.refl (source : Source) (journal : Journal) : source.Alike journal journal :=
  fun _ _ => rfl

/-- A source whose answers never change has forgotten every journal. -/
theorem Answers.alike {answers : Request → List Triple} (steady : source.Answers answers)
    (journal other : Journal) : source.Alike journal other :=
  fun _ request => (steady _ request).trans (steady _ request).symm

theorem Alike.of_asked (alike : source.Alike journal other) {after after' : Journal}
    (same : after.asked = journal.asked) (same' : after'.asked = other.asked) :
    source.Alike after after' := by
  simp only [Alike, Journal.callsTo, same, same'] at alike ⊢
  exact alike

theorem callsTo_recordRequest (journal : Journal) (store : String) (request : Request)
    (watched : Bool) :
    (journal.recordRequest store request watched).callsTo store = journal.callsTo store + 1 := by
  simp [Journal.recordRequest, Journal.callsTo]

theorem Alike.recordRequest (alike : source.Alike journal other) (request : Request) :
    source.Alike (journal.recordRequest source.name request source.watched)
      (other.recordRequest source.name request source.watched) := by
  intro more wanted
  have later := alike (1 + more) wanted
  rwa [← Nat.add_assoc, ← Nat.add_assoc, ← callsTo_recordRequest _ _ request source.watched,
    ← callsTo_recordRequest _ _ request source.watched] at later

end Source

/-- The step asks no store. -/
def Logged.Silent {α : Type} (step : Logged α) : Prop :=
  ∀ journal : Journal, (step.run journal).2.asked = journal.asked

theorem silent_report (event : Event) : (report event).Silent := fun _ => rfl

theorem silent_note (entry : Entry) : (note entry).Silent := fun _ => rfl

theorem silent_countNode : countNode.Silent := fun _ => rfl

theorem silent_nodesSoFar : nodesSoFar.Silent := fun _ => rfl

namespace Run

variable {ε ε' α β γ : Type} {source : Source}

/-- From journals after which the source answers alike, both runs end with the same result or error,
    and after that the source goes on to answer alike. -/
def EndsAlike (source : Source) (first second : Run ε α) : Prop :=
  ∀ journal other : Journal, source.Alike journal other →
    (first.run.run journal).1 = (second.run.run other).1 ∧
      source.Alike (first.run.run journal).2 (second.run.run other).2

theorem endsAlike_ofExcept (result : Except ε α) :
    EndsAlike source (ofExcept result) (ofExcept result) :=
  fun _ _ alike => ⟨rfl, alike⟩

theorem endsAlike_pure (result : α) : EndsAlike source (pure result : Run ε α) (pure result) :=
  endsAlike_ofExcept (.ok result)

theorem endsAlike_step {step : Logged Unit} (silent : step.Silent) :
    EndsAlike source (liftM step : Run ε Unit) (liftM step) :=
  fun journal other alike => ⟨rfl, alike.of_asked (silent journal) (silent other)⟩

theorem EndsAlike.bind {first second : Run ε α} {next next' : α → Run ε β}
    (start : EndsAlike source first second) (rest : ∀ a, EndsAlike source (next a) (next' a)) :
    EndsAlike source (first >>= next) (second >>= next') := by
  intro journal other alike
  obtain ⟨same, after⟩ := start journal other alike
  simp only [ExceptT.run_bind, StateT.run_bind]
  cases ran : first.run.run journal with
  | mk result middle =>
    cases ran' : second.run.run other with
    | mk result' middle' =>
      rw [ran, ran'] at same after
      cases same
      cases result with
      | error cause => exact ⟨rfl, after⟩
      | ok a => exact rest a middle middle' after

theorem EndsAlike.map {first second : Run ε α} (alike : EndsAlike source first second)
    (f : α → β) : EndsAlike source (f <$> first) (f <$> second) := by
  rw [← bind_pure_comp, ← bind_pure_comp]
  exact alike.bind fun a => endsAlike_pure (f a)

/-- What steps read may differ, if what follows ends alike for all that they may have read. -/
theorem EndsAlike.after_step {step : Logged α} {step' : Logged β} {next : α → Run ε γ}
    {next' : β → Run ε γ} (silent : step.Silent) (silent' : step'.Silent)
    (rest : ∀ a b, EndsAlike source (next a) (next' b)) :
    EndsAlike source ((liftM step : Run ε α) >>= next) ((liftM step' : Run ε β) >>= next') :=
  fun journal other alike => rest (step.run journal).1 (step'.run other).1 _ _
    (alike.of_asked (silent journal) (silent' other))

theorem EndsAlike.after_run {first second : Run ε α} {next next' : Except ε α → Run ε' β}
    (start : EndsAlike source first second) (rest : ∀ a, EndsAlike source (next a) (next' a)) :
    EndsAlike source ((liftM first.run : Run ε' (Except ε α)) >>= next)
      ((liftM second.run : Run ε' (Except ε α)) >>= next') := by
  intro journal other alike
  obtain ⟨same, after⟩ := start journal other alike
  change ((next (first.run.run journal).1).run.run (first.run.run journal).2).1 =
      ((next' (second.run.run other).1).run.run (second.run.run other).2).1 ∧
    source.Alike ((next (first.run.run journal).1).run.run (first.run.run journal).2).2
      ((next' (second.run.run other).1).run.run (second.run.run other).2).2
  rw [same]
  exact rest _ _ _ after

theorem EndsAlike.adapt {first second : Run ε α} (alike : EndsAlike source first second)
    (f : ε → ε') : EndsAlike source (ExceptT.adapt f first) (ExceptT.adapt f second) := by
  intro journal other before
  obtain ⟨same, after⟩ := alike journal other before
  exact ⟨congrArg (Except.mapError f) same, after⟩

theorem endsAlike_filterMapM {step step' : α → Run ε (Option β)} (xs : List α)
    (each : ∀ x, EndsAlike source (step x) (step' x)) :
    EndsAlike source (xs.filterMapM step) (xs.filterMapM step') := by
  induction xs with
  | nil => exact endsAlike_pure []
  | cons x xs ih =>
    rw [List.filterMapM_cons, List.filterMapM_cons]
    refine (each x).bind fun found => ?_
    cases found with
    | none => exact ih
    | some y => exact ih.bind fun ys => endsAlike_pure (y :: ys)

/-- Over a source whose answers never change, a run that succeeds once always yields the same. -/
theorem EndsAlike.yields {answers : Request → List Triple} (steady : source.Answers answers)
    {run : Run ε α} (alike : EndsAlike source run run) {journal : Journal} {a : α}
    (success : (run.run.run journal).1 = .ok a) : run.Yields a := by
  intro other
  have same := (alike other journal (steady.alike other journal)).1
  exact ⟨_, Prod.ext (same.trans success) rfl⟩

end Run

theorem Source.endsAlike_ask (source : Source) (request : Request) :
    Run.EndsAlike source (source.ask request) (source.ask request) := by
  intro journal other alike
  exact ⟨alike 0 request, alike.recordRequest request⟩

end TripleJoin
