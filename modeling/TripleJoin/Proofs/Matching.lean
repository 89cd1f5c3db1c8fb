import TripleJoin.Matcher
import TripleJoin.Proofs.Ensures
/-!
What matching is made of. Whatever the sources answer, matching over them only counts nodes, reports
events, asks constraints and scans the candidates of statements. What each of these steps keeps, and
what is kept when steps follow one another, is therefore kept by matching as a whole.
-/
namespace TripleJoin

/-- Runs, and then reports the result and how many nodes were made meanwhile. -/
def Run.reporting {ε α : Type} (run : Run ε α) (event : α → Nat → Event) : Run ε α := do
  let before ← nodesSoFar
  let result ← run
  report (event result ((← nodesSoFar) - before))
  return result

/-- Asks the source for a statement, and follows each candidate that makes a child. -/
def Matcher.scan (source : Source) (statement : Statement) (binding : Binding)
    (follow : Triple → Binding → Run QueryError (Option Tree)) : Run QueryError (List Tree) := do
  let candidates ← (source.ask statement.request).adapt QueryError.store
  candidates.filterMapM fun candidate => do
    match ← childBinding statement binding candidate with
    | none => return none
    | some next => follow candidate next

/-- One computation over two sources, made of the steps of matching, with such filters and
    constraints. Every result that it comes to over the first of them has a property. -/
inductive Matching (source other : Source) (filters : Filter → Prop)
    (constraints : Constraint → Prop) :
    {α : Type} → Run QueryError α → Run QueryError α → (α → Prop) → Prop where
  | done {α : Type} {p : α → Prop} {result : α} (holds : p result) :
      Matching source other filters constraints (pure result) (pure result) p
  | bind {α β : Type} {p : α → Prop} {q : β → Prop} {first first' : Run QueryError α}
      {next next' : α → Run QueryError β}
      (start : Matching source other filters constraints first first' p)
      (rest : ∀ a, Matching source other filters constraints (next a) (next' a)
        fun b => p a → q b) :
      Matching source other filters constraints (first >>= next) (first' >>= next') q
  | ensuring {α : Type} {p q : α → Prop} {run run' : Run QueryError α}
      (matching : Matching source other filters constraints run run' p)
      (ensures : run.Ensures fun a => p a → q a) :
      Matching source other filters constraints run run' q
  | node :
      Matching source other filters constraints (liftM countNode) (liftM countNode) fun _ => True
  | tell {event : Event} (mild : event.level ≠ .warn) :
      Matching source other filters constraints (liftM (report event)) (liftM (report event))
        fun _ => True
  | reporting {α : Type} {p : α → Prop} {run run' : Run QueryError α} {event : α → Nat → Event}
      (mild : ∀ a nodes, (event a nodes).level ≠ .warn)
      (matching : Matching source other filters constraints run run' p) :
      Matching source other filters constraints (run.reporting event) (run'.reporting event) p
  | ask {constraint : Constraint} (allowed : constraints constraint) (index : Nat)
      (binding : Binding) :
      Matching source other filters constraints
        (ExceptT.adapt (fun cause => QueryError.evaluation (.constraint cause))
          (constraint.apply index binding source))
        (ExceptT.adapt (fun cause => QueryError.evaluation (.constraint cause))
          (constraint.apply index binding other)) fun _ => True
  | scan {statement : Statement} (allowed : ∀ filter ∈ statement.filter, filters filter)
      {binding : Binding} {p : Tree → Prop}
      {follow follow' : Triple → Binding → Run QueryError (Option Tree)}
      (each : ∀ candidate next, Matching source other filters constraints (follow candidate next)
        (follow' candidate next) fun found =>
          binding.extended statement.toTriplePattern candidate = some next →
            ∀ tree ∈ found, p tree) :
      Matching source other filters constraints (Matcher.scan source statement binding follow)
        (Matcher.scan other statement binding follow') fun trees => ∀ tree ∈ trees, p tree

namespace Matching

variable {source other : Source} {filters : Filter → Prop} {constraints : Constraint → Prop}
  {α β : Type} {run run' : Run QueryError α} {p q : α → Prop}

theorem imp (matching : Matching source other filters constraints run run' p)
    (weaker : ∀ a, p a → q a) : Matching source other filters constraints run run' q :=
  .ensuring matching fun _ a _ => weaker a

theorem after {q : β → Prop} {next next' : α → Run QueryError β}
    (start : Matching source other filters constraints run run' fun _ => True)
    (rest : ∀ a, Matching source other filters constraints (next a) (next' a) q) :
    Matching source other filters constraints (run >>= next) (run' >>= next') q :=
  .bind start fun a => (rest a).imp fun _ holds _ => holds

end Matching

open Run

theorem Matcher.ensures_childBinding (statement : Statement) (binding : Binding)
    (candidate : Triple) :
    (childBinding statement binding candidate).Ensures fun found =>
      ∀ next ∈ found, binding.extended statement.toTriplePattern candidate = some next := by
  refine ensures_bind fun accepted => ensures_pure ?_
  cases accepted with
  | true => exact fun next fits => fits
  | false => exact fun _ absurd => nomatch absurd

theorem Matching.ensures {source other : Source} {filters : Filter → Prop}
    {constraints : Constraint → Prop} {α : Type} {run run' : Run QueryError α} {p : α → Prop}
    (matching : Matching source other filters constraints run run' p) : run.Ensures p := by
  induction matching with
  | done holds => exact ensures_pure holds
  | bind _ _ start rest =>
    exact start.bind fun a holds journal b ends => rest a journal b ends holds
  | ensuring _ after ensures =>
    exact fun journal a ends => after journal a ends (ensures journal a ends)
  | node => exact fun _ _ _ => trivial
  | tell => exact fun _ _ _ => trivial
  | reporting _ _ ensures =>
    refine ensures_bind fun _ => ensures.bind fun a holds => ?_
    exact ensures_bind fun _ => ensures_bind fun _ => ensures_pure holds
  | ask => exact fun _ _ _ => trivial
  | scan _ _ each =>
    refine ensures_bind fun candidates => ensures_filterMapM candidates fun candidate => ?_
    refine (Matcher.ensures_childBinding _ _ candidate).bind fun found fits => ?_
    cases found with
    | none => exact ensures_pure fun _ absurd => nomatch absurd
    | some next =>
      exact fun journal found ends => each candidate next journal found ends (fits next rfl)

end TripleJoin
