import TripleJoin.Proofs.Lockstep
import TripleJoin.Proofs.Matcher.Scan
import TripleJoin.Proofs.Tree.Clauses
/-!
Matching over a source that answers too much. Every candidate is tried against the whole statement, so
a triple that does not meet the request makes no child: it is offered to the filter and dropped.
Matching goes in step with matching over the graph, whatever the answers hold besides.
-/
namespace TripleJoin

/-- Every answer has all triples of the graph that meet the request, and perhaps others, in the order
    of the graph. -/
def Source.Covers (source : Source) (graph : Graph) : Prop :=
  ∀ earlier request, ∃ triples, source.answer earlier request = .ok triples ∧
    triples.Sublist graph.toList ∧
    ∀ triple ∈ graph.toList, request.admits triple = true → triple ∈ triples

theorem Store.covers_unselective (name : String) (graph : Graph) (watched : Bool) :
    (Store.unselective name graph watched).Covers graph :=
  fun _ _ => ⟨graph.toList, rfl, .refl _, fun _ member _ => member⟩

theorem Graph.filter_of_covering {graph : Graph} {request : Request} {triples : List Triple}
    (sub : triples.Sublist graph.toList)
    (all : ∀ triple ∈ graph.toList, request.admits triple = true → triple ∈ triples) :
    (triples.filter fun triple => request.admits triple) = graph.matching request := by
  rw [matching_eq_filter]
  have found := sub.filter fun triple => request.admits triple
  have distinct := graph.toList_nodup.filter fun triple => request.admits triple
  have perm := (List.perm_ext_iff_of_nodup (distinct.sublist found) distinct).mpr fun triple => by
    refine ⟨fun member => found.subset member, fun member => ?_⟩
    obtain ⟨held, admitted⟩ := List.mem_filter.mp member
    exact List.mem_filter.mpr ⟨all triple held admitted, admitted⟩
  exact found.eq_of_length perm.length_eq

variable {source exact : Source} {graph : Graph}

/-- Where candidates that do not meet the request make no difference, neither do the answers of a
    source that covers the graph. -/
theorem Source.inStep_ask (covers : source.Covers graph) (steady : exact.Answers graph.matching)
    (request : Request) {α : Type} {next next' : List Triple → Run QueryError α}
    (rest : ∀ triples : List Triple,
      (next triples).InStep (next' (triples.filter fun triple => request.admits triple))) :
    Run.InStep (ExceptT.adapt QueryError.store (source.ask request) >>= next)
      (ExceptT.adapt QueryError.store (exact.ask request) >>= next') := by
  intro journal other agrees
  obtain ⟨triples, answered, sub, all⟩ := covers (journal.callsTo source.name) request
  have asked : ((ExceptT.adapt QueryError.store (source.ask request)).run).run journal =
      (.ok triples, journal.recordRequest source.name request source.watched) := by
    change (Except.mapError QueryError.store (source.answer _ request), _) = _
    rw [answered]
    rfl
  have asked' : ((ExceptT.adapt QueryError.store (exact.ask request)).run).run other =
      (.ok (graph.matching request), other.recordRequest exact.name request exact.watched) := by
    change (Except.mapError QueryError.store (exact.answer _ request), _) = _
    rw [steady]
    rfl
  rw [ExceptT.run_bind, ExceptT.run_bind, StateT.run_bind, StateT.run_bind, asked, asked',
    ← Graph.filter_of_covering sub all]
  exact rest triples _ _ (agrees.recordRequest source exact request)

theorem Decision.inStep_run {decision : Decision} (silent : decision.Silent)
    (source exact : Source) : (decision.run source).InStep (decision.run exact) := by
  induction decision with
  | verdict result => exact Run.inStep_ofExcept result
  | remark event rest ih =>
    exact Run.InStep.after_step (Logged.inStep_report event) fun _ => ih silent
  | ask request next => exact absurd silent id

/-- A filter that always decides tells nothing but its verdict. -/
theorem Statement.inStep_accepts {statement : Statement} (decides : statement.Decides)
    (triple : Triple) : (statement.accepts triple).InStep (pure (statement.passes triple)) := by
  unfold accepts passes
  cases chosen : statement.filter with
  | none => exact Run.inStep_pure true
  | some filter =>
    obtain ⟨verdict, checked⟩ := decides filter chosen triple
    rw [Option.all_some, checked]
    change Run.InStep (filter.apply triple) _
    unfold Filter.apply
    rw [checked]
    have untold : (Entry.filter triple filter.watched).told = none := rfl
    exact Run.InStep.after_step (Logged.inStep_untold untold) fun _ => Run.inStep_pure verdict

theorem Constraint.inStep_apply {constraint : Constraint} (silent : constraint.Silent) (index : Nat)
    (seen : Binding) :
    (constraint.apply index seen source).InStep (constraint.apply index seen exact) :=
  Run.InStep.after_step (Logged.inStep_note rfl) fun _ =>
    Decision.inStep_run (silent seen) source exact

theorem Matcher.inStep_childBinding {statement : Statement} (decides : statement.Decides)
    (binding : Binding) (candidate : Triple) :
    (childBinding statement binding candidate).InStep
      (pure (childOf statement binding candidate)) :=
  ((Statement.inStep_accepts decides candidate).adapt _).skip (Run.inStep_pure _)

def Filter.Decides (filter : Filter) : Prop :=
  ∀ triple, ∃ verdict, filter.check triple = .ok verdict

/-- Matching over a covering source goes in step with matching over the graph. -/
theorem Matching.inStep (covers : source.Covers graph) (steady : exact.Answers graph.matching)
    {α : Type} {run run' : Run QueryError α} {p : α → Prop}
    (matching : Matching source exact Filter.Decides Constraint.Silent run run' p) :
    run.InStep run' := by
  induction matching with
  | done => exact Run.inStep_pure _
  | bind _ _ start rest => exact start.bind rest
  | ensuring _ _ inStep => exact inStep
  | node => exact Run.inStep_step Logged.inStep_countNode
  | tell => exact Run.inStep_step (Logged.inStep_report _)
  | reporting _ _ inStep =>
    refine Run.InStep.after_step Logged.inStep_nodesSoFar fun before => inStep.bind fun _ => ?_
    refine Run.InStep.after_step Logged.inStep_nodesSoFar fun now => ?_
    exact Run.InStep.after_step (Logged.inStep_report _) fun _ => Run.inStep_pure _
  | ask silent index binding => exact (Constraint.inStep_apply silent index binding).adapt _
  | @scan statement decides binding _ _ _ _ each =>
    refine Source.inStep_ask covers steady _ fun triples => Run.inStep_filterMapM _ ?_ ?_
    · intro candidate _ _
      have child := Matcher.inStep_childBinding decides binding candidate
      refine (child.trans child.symm).bind fun found => ?_
      cases found with
      | none => exact Run.inStep_pure none
      | some next => exact each candidate next
    · -- the filter is asked about the candidate, but it does not fit the statement
      intro candidate _ missed
      have child := Matcher.inStep_childBinding decides binding candidate
      rw [Matcher.childOf_eq_none missed] at child
      exact child.skip (Run.inStep_pure none)

theorem Matcher.inStep_expandFrom (covers : source.Covers graph)
    (steady : exact.Answers graph.matching) {constraints : List Constraint}
    {inherited : Option Binding} (silent : ∀ constraint ∈ constraints, constraint.Silent)
    {statements : List Statement} (filters : ∀ statement ∈ statements, statement.Decides)
    (binding : Binding) (matched : Option Triple) :
    ((Matcher.mk source constraints inherited).expandFrom statements binding matched).InStep
      ((Matcher.mk exact constraints inherited).expandFrom statements binding matched) :=
  (matching_expandFrom silent filters binding matched).inStep covers steady

theorem Tree.inStep_attach (covers : source.Covers graph) (steady : exact.Answers graph.matching)
    {clauses : List Pattern} (silent : ∀ clause ∈ clauses, clause.Silent)
    (filters : ∀ clause ∈ clauses, ∀ statement ∈ clause.statements, statement.Decides)
    (tree : Tree) : (attach source clauses tree).InStep (attach exact clauses tree) := by
  have uses : ∀ clause ∈ clauses, clause.Uses Filter.Decides Constraint.Silent :=
    fun clause member => ⟨filters clause member, silent clause member⟩
  exact (tree.matching_attach uses).inStep covers steady

end TripleJoin
