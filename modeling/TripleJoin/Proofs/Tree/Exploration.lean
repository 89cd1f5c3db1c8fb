import Mathlib.Algebra.GroupWithZero.Nat
import TripleJoin.Proofs.Tree.Attachment
import TripleJoin.Proofs.Warnings
/-!
The nodes that each expansion explores while the clauses are attached to a tree. Clause by clause and
leaf by leaf an expansion of its own starts where the last one left the journal, and together they
make every node that is counted meanwhile. None of them warns of its size.
-/
namespace TripleJoin

open Run

/-- Matching only makes nodes and asks, so all that it may warn of is remarked by constraints. -/
theorem Matching.calm {source other : Source} {filters : Filter → Prop} {remarks : Event → Prop}
    {α : Type} {run run' : Run QueryError α} {p : α → Prop}
    (matching : Matching source other filters (fun constraint => ∀ binding event,
      (constraint.decide binding).Remarks event → remarks event) run run' p) :
    run.Calm remarks := by
  induction matching with
  | done => exact calm_pure _
  | bind _ _ start rest => exact start.bind rest
  | ensuring _ _ calm => exact calm
  | node => exact calm_step Logged.calm_countNode
  | tell mild => exact calm_step (Logged.calm_report mild)
  | reporting mild _ calm =>
    refine Calm.after_step Logged.calm_nodesSoFar fun _ => calm.bind fun _ => ?_
    refine Calm.after_step Logged.calm_nodesSoFar fun _ => ?_
    exact Calm.after_step (Logged.calm_report (mild _ _)) fun _ => calm_pure _
  | ask allowed index binding =>
    exact (Calm.after_step (Logged.calm_note rfl) fun _ =>
      Decision.calm_run (allowed binding) _).adapt _
  | scan _ _ each =>
    refine ((source.calm_ask _).adapt _).bind fun candidates => ?_
    refine calm_filterMapM candidates fun candidate => ?_
    refine (((Statement.calm_accepts _ candidate).adapt _).bind fun _ => calm_pure _).bind
      fun found => ?_
    cases found with
    | none => exact calm_pure none
    | some next => exact each candidate next

theorem Matcher.calm_expandFrom {matcher : Matcher} {remarks : Event → Prop}
    (allowed : ∀ constraint ∈ matcher.constraints, ∀ binding event,
      (constraint.decide binding).Remarks event → remarks event) (statements : List Statement)
    (binding : Binding) (matched : Option Triple) :
    (matcher.expandFrom statements binding matched).Calm remarks := by
  have free : Matching matcher.source matcher.source (fun _ => True)
      (fun constraint => ∀ binding event, (constraint.decide binding).Remarks event → remarks event)
      (matcher.expandFrom statements binding matched) _ _ :=
    matching_expandFrom allowed (fun _ _ _ _ => trivial) binding matched
  exact free.calm

namespace Tree

/-- The nodes that the clauses explore at a leaf, one clause after the other. -/
def clausesExplored (source : Source) (leaf : Binding) : Nat → List Pattern → Journal → List Nat
  | _, [], _ => []
  | index, clause :: rest, journal =>
    (expandClause source leaf clause).explored journal ::
      clausesExplored source leaf (index + 1) rest
        ((matchClause source leaf index clause).after journal)

mutual

/-- The nodes that the clauses explore at the bound leaves of a tree, leaf after leaf. -/
def explored (source : Source) (clauses : List Pattern) : Tree → Journal → List Nat
  | inner _ _ children, journal => exploredAll source clauses children journal
  | leaf binding _ _, journal =>
    if binding.isComplete then clausesExplored source binding 0 clauses journal else []

def exploredAll (source : Source) (clauses : List Pattern) : List Tree → Journal → List Nat
  | [], _ => []
  | tree :: trees, journal =>
    explored source clauses tree journal ++
      exploredAll source clauses trees ((tree.attach source clauses).after journal)

end

section

variable {source : Source} {leaf : Binding} {index : Nat} {clause : Pattern}
  {clauses : List Pattern} {remarks : Event → Prop} {journal : Journal}

theorem accrues_matchClause (allowed : ∀ event, clause.Remarks event → remarks event) :
    journal.Accrues remarks ((expandClause source leaf clause).explored journal) []
      ((matchClause source leaf index clause).after journal) := by
  have calm : (expandClause source leaf clause).Calm remarks :=
    Matcher.calm_expandFrom (fun constraint member binding event remarked =>
      allowed event ⟨constraint, member, binding, remarked⟩) _ _ none
  rw [matchClause, after_nodesSoFar]
  refine accrues_bind (calm.accrues journal) fun found middle => ?_
  cases found with
  | none => exact middle.accrues_record rfl
  | some tree => exact middle.accrues_record rfl

theorem accrues_matchClauses
    (allowed : ∀ clause ∈ clauses, ∀ event, clause.Remarks event → remarks event)
    {trees : List Tree}
    (ends : ((matchClauses source leaf index clauses).run.run journal).1 = .ok trees) :
    journal.Accrues remarks (clausesExplored source leaf index clauses journal).sum []
      ((matchClauses source leaf index clauses).after journal) := by
  induction clauses generalizing index journal trees with
  | nil => exact .refl journal
  | cons clause clauses ih =>
    rw [List.forall_mem_cons] at allowed
    obtain ⟨tree, _, ends, last⟩ := after_bind ends
    obtain ⟨later, there, _, last'⟩ := after_bind ends
    rw [matchClauses, last, last', clausesExplored, List.sum_cons]
    exact (accrues_matchClause allowed.1).trans (ih allowed.2 there)

mutual

/-- The expansions at the leaves make all nodes that are counted while clauses are attached. -/
theorem accrues_attach
    (allowed : ∀ clause ∈ clauses, ∀ event, clause.Remarks event → remarks event) :
    ∀ (tree : Tree) {journal : Journal} {next : Tree},
      ((tree.attach source clauses).run.run journal).1 = .ok next →
        journal.Accrues remarks (tree.explored source clauses journal).sum []
          ((tree.attach source clauses).after journal)
  | inner binding matched children, journal, next, ends => by
    obtain ⟨trees, here, _, last⟩ := after_bind ends
    rw [attach, last, explored]
    exact accrues_attachAll allowed children here
  | leaf binding matched optionals, journal, next, ends => by
    rw [attach] at ends ⊢
    rw [explored]
    split at ends
    · rename_i complete
      obtain ⟨trees, here, _, last⟩ := after_bind ends
      rw [if_pos complete, if_pos complete, last]
      exact accrues_matchClauses allowed here
    · rename_i partly
      rw [if_neg partly, if_neg partly]
      exact .refl journal

theorem accrues_attachAll
    (allowed : ∀ clause ∈ clauses, ∀ event, clause.Remarks event → remarks event) :
    ∀ (trees : List Tree) {journal : Journal} {next : List Tree},
      ((attachAll source clauses trees).run.run journal).1 = .ok next →
        journal.Accrues remarks (exploredAll source clauses trees journal).sum []
          ((attachAll source clauses trees).after journal)
  | [], journal, _, _ => .refl journal
  | tree :: trees, journal, next, ends => by
    obtain ⟨first, here, ends, last⟩ := after_bind ends
    obtain ⟨later, there, _, last'⟩ := after_bind ends
    rw [attachAll, last, last', exploredAll, List.sum_append]
    exact (accrues_attach allowed tree here).trans (accrues_attachAll allowed trees there)

end

end

end Tree

end TripleJoin
