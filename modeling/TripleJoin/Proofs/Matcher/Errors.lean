import TripleJoin.Proofs.Tree.Clauses
/-!
The errors of matching. Whatever a store and the callbacks do, expansion and the clauses at its leaves
end in errors of theirs and never in a fault of the query.
-/
namespace TripleJoin

/-- An error of matching: the store or a callback failed. -/
def QueryError.OfMatching (error : QueryError) : Prop :=
  ∀ fault, error ≠ .configuration fault

theorem QueryError.ofMatching_evaluation (error : EvaluationError) :
    (QueryError.evaluation error).OfMatching :=
  fun _ absurd => nomatch absurd

theorem QueryError.ofMatching_store (error : StoreError) : (QueryError.store error).OfMatching :=
  fun _ absurd => nomatch absurd

open Run QueryError

theorem Matching.errsWithin {source other : Source} {filters : Filter → Prop}
    {constraints : Constraint → Prop} {α : Type} {run run' : Run QueryError α} {p : α → Prop}
    (matching : Matching source other filters constraints run run' p) :
    run.ErrsWithin OfMatching := by
  induction matching with
  | done => exact errsWithin_pure _
  | bind _ _ start rest => exact start.bind rest
  | ensuring _ _ within => exact within
  | node => exact fun _ _ absurd => nomatch absurd
  | tell => exact fun _ _ absurd => nomatch absurd
  | reporting _ _ within =>
    refine ErrsWithin.after_step fun _ => within.bind fun _ => ?_
    exact ErrsWithin.after_step fun _ => ErrsWithin.after_step fun _ => errsWithin_pure _
  | ask => exact errsWithin_adapt _ fun _ => ofMatching_evaluation _
  | scan _ _ each =>
    refine (errsWithin_adapt _ ofMatching_store).bind fun candidates => ?_
    refine errsWithin_filterMapM candidates fun candidate => ?_
    refine ((errsWithin_adapt _ fun _ => ofMatching_evaluation _).bind fun _ =>
      errsWithin_pure _).bind fun found => ?_
    cases found with
    | none => exact errsWithin_pure none
    | some next => exact each candidate next

theorem Matcher.errsWithin_expandFrom (matcher : Matcher) (statements : List Statement)
    (binding : Binding) (matched : Option Triple) :
    (matcher.expandFrom statements binding matched).ErrsWithin OfMatching :=
  (matcher.matching_any statements binding matched).errsWithin

theorem Tree.errsWithin_attach (source : Source) (clauses : List Pattern) (tree : Tree) :
    (tree.attach source clauses).ErrsWithin OfMatching :=
  (tree.matching_attach_any source clauses).errsWithin

end TripleJoin
