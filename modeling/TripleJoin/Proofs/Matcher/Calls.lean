import Mathlib.Data.List.Basic
import TripleJoin.Proofs.Makes
import TripleJoin.Proofs.Matcher.Rows
/-!
The calls of a search and the partial matches that it visits, found without a run. A statement is asked
of the store, and each candidate is asked of the filter and followed at once through the statements
that remain; a bound leaf asks the constraints until one does not hold. The clauses come after the
whole main pattern, leaf after leaf. If none of these calls fails, the grown tree is what the search
comes to, and attaching clauses comes to the dressed one.
-/
namespace TripleJoin

section

variable {source : Source} {answers : Request → List Triple}

theorem Call.fine_request (steady : source.Answers answers) (request : Request) :
    (Call.request request).Fine source answers := by
  intro asked
  rw [error?, steady]
  rfl

theorem Call.fine_constraint {constraint : Constraint} (decides : constraint.Decides answers)
    (index : Nat) (seen : Binding) : (Call.constraint constraint index seen).Fine source answers := by
  intro asked
  obtain ⟨verdict, ends⟩ := decides seen
  rw [error?, ends]
  rfl

theorem Statement.fine_filterCalls {statement : Statement} (decides : statement.Decides)
    (triple : Triple) : ∀ call ∈ statement.filterCalls triple, call.Fine source answers := by
  unfold filterCalls
  cases chosen : statement.filter with
  | none => exact List.forall_mem_nil _
  | some filter =>
    refine List.forall_mem_singleton.mpr fun asked => ?_
    obtain ⟨verdict, checked⟩ := decides filter chosen triple
    rw [Call.error?, checked]
    rfl

theorem Statement.silent_filterCalls (statement : Statement) (triple : Triple) :
    ∀ call ∈ statement.filterCalls triple, call.Silent := by
  unfold filterCalls
  cases statement.filter with
  | none => exact List.forall_mem_nil _
  | some filter => exact List.forall_mem_singleton.mpr trivial

end

namespace Matcher

/-- The constraints that are asked: all up to the first that does not hold. -/
def constraintCalls (answers : Request → List Triple) (seen : Binding) (index : Nat) :
    List Constraint → List Call
  | [] => []
  | constraint :: rest =>
    .constraint constraint index seen ::
      if constraint.holds answers seen then constraintCalls answers seen (index + 1) rest else []

def calls (matcher : Matcher) (answers : Request → List Triple) :
    List Statement → Binding → List Call
  | [], binding =>
    if binding.isComplete then
      constraintCalls answers (matcher.view binding) 0 matcher.constraints
    else []
  | head :: rest, binding =>
    let statement := head.substitute binding
    .request statement.request :: (answers statement.request).flatMap fun candidate =>
      statement.filterCalls candidate ++
        ((childOf statement binding candidate).map (matcher.calls answers rest)).getD []

/-- The visits from a binding on, in the order of expansion. -/
def visits (answers : Request → List Triple) : List Statement → Binding → List Visit
  | [], binding => [⟨[], binding⟩]
  | head :: rest, binding =>
    ⟨head :: rest, binding⟩ :: (extensions answers head binding).flatMap (visits answers rest)

/-- Candidate after candidate, what is visited below its child. -/
theorem visits_cons (answers : Request → List Triple) (head : Statement) (rest : List Statement)
    (binding : Binding) :
    visits answers (head :: rest) binding = ⟨head :: rest, binding⟩ ::
      (answers (head.substitute binding).request).flatMap fun candidate =>
        (childOf (head.substitute binding) binding candidate).toList.flatMap
          (visits answers rest) := by
  rw [visits, extensions, List.filterMap_eq_flatMap_toList, List.flatMap_assoc]

section

variable {matcher : Matcher} {answers : Request → List Triple} {p : Call → Prop}

theorem forall_mem_constraintCalls {constraints : List Constraint} (seen : Binding) (index : Nat)
    (each : ∀ constraint ∈ constraints, ∀ index, p (.constraint constraint index seen)) :
    ∀ call ∈ constraintCalls answers seen index constraints, p call := by
  induction constraints generalizing index with
  | nil => exact List.forall_mem_nil _
  | cons constraint constraints ih =>
    rw [List.forall_mem_cons] at each
    rw [constraintCalls, List.forall_mem_cons]
    refine ⟨each.1 index, ?_⟩
    split
    · exact ih (index + 1) each.2
    · exact List.forall_mem_nil _

/-- A search makes plain requests and asks the filters of its statements and its constraints. -/
theorem forall_mem_calls {statements : List Statement}
    (requests : ∀ request, p (.request request))
    (filters : ∀ statement ∈ statements, ∀ binding candidate,
      ∀ call ∈ (statement.substitute binding).filterCalls candidate, p call)
    (constraints : ∀ constraint ∈ matcher.constraints, ∀ seen index,
      p (.constraint constraint index seen)) (binding : Binding) :
    ∀ call ∈ matcher.calls answers statements binding, p call := by
  induction statements generalizing binding with
  | nil =>
    rw [calls]
    split
    · exact forall_mem_constraintCalls _ 0 fun constraint member =>
        constraints constraint member (matcher.view binding)
    · exact List.forall_mem_nil _
  | cons head rest ih =>
    rw [List.forall_mem_cons] at filters
    rw [calls, List.forall_mem_cons, List.forall_mem_flatMap]
    refine ⟨requests _, fun candidate _ => List.forall_mem_append.mpr ⟨?_, ?_⟩⟩
    · exact filters.1 binding candidate
    · cases childOf (head.substitute binding) binding candidate with
      | none => exact List.forall_mem_nil _
      | some next => exact ih filters.2 next

theorem silent_calls (silent : ∀ constraint ∈ matcher.constraints, constraint.Silent)
    (statements : List Statement) (binding : Binding) :
    ∀ call ∈ matcher.calls answers statements binding, call.Silent :=
  forall_mem_calls (fun _ => trivial) (fun _ _ _ => Statement.silent_filterCalls _)
    (fun constraint member seen _ => silent constraint member seen) binding

theorem fine_calls (steady : matcher.source.Answers answers)
    (decide : ∀ constraint ∈ matcher.constraints, constraint.Decides answers)
    {statements : List Statement} (filters : ∀ statement ∈ statements, statement.Decides)
    (binding : Binding) :
    ∀ call ∈ matcher.calls answers statements binding, call.Fine matcher.source answers :=
  forall_mem_calls (Call.fine_request steady)
    (fun statement member here => Statement.fine_filterCalls
      ((filters statement member).substitute here))
    (fun constraint member seen index => Call.fine_constraint (decide constraint member) index seen)
    binding

theorem makes_holdFrom (seen : Binding) (index : Nat) (constraints : List Constraint) :
    (matcher.holdFrom seen index constraints).Makes matcher.source answers
      (constraintCalls answers seen index constraints) []
      (constraints.all fun constraint => constraint.holds answers seen) := by
  induction constraints generalizing index with
  | nil => exact Run.makes_pure true
  | cons constraint constraints ih =>
    rw [holdFrom, constraintCalls, List.all_cons]
    refine (constraint.makes_apply index seen).bind ?_
    cases constraint.holds answers seen with
    | false => exact Run.makes_pure false
    | true => exact ih (index + 1)

theorem makes_finish (binding : Binding) (matched : Option Triple) :
    (matcher.finish binding matched).Makes matcher.source answers
      (matcher.calls answers [] binding) [] (matcher.grow answers [] binding matched) := by
  unfold finish calls grow
  cases binding.isComplete with
  | false => exact Run.makes_pure _
  | true =>
    refine (makes_holdFrom (matcher.view binding) 0 matcher.constraints).bind_quiet ?_
    unfold admitsLeaf
    cases matcher.constraints.all fun constraint =>
        constraint.holds answers (matcher.view binding) with
    | false => exact Run.Makes.after_step (Journal.rests_report _) fun _ => Run.makes_pure none
    | true => exact Run.makes_pure _

theorem makes_childBinding (statement : Statement) (binding : Binding) (candidate : Triple) :
    (childBinding statement binding candidate).Makes matcher.source answers
      (statement.filterCalls candidate) [] (childOf statement binding candidate) :=
  (statement.makes_accepts candidate).bind_quiet (Run.makes_pure _)

/-- Expansion makes the calls of the search and a node for each visit, whatever fails. -/
theorem makes_expandFrom (matcher : Matcher) (answered : matcher.source.AnswersOrFails answers)
    (statements : List Statement) (binding : Binding) (matched : Option Triple) :
    (matcher.expandFrom statements binding matched).Makes matcher.source answers
      (matcher.calls answers statements binding) (visits answers statements binding)
      (matcher.grow answers statements binding matched) := by
  induction statements generalizing binding matched with
  | nil => exact Run.Makes.after_node ⟨[], binding⟩ (makes_finish binding matched)
  | cons head rest ih =>
    rw [visits_cons]
    refine Run.Makes.after_node ⟨head :: rest, binding⟩ ?_
    let statement := head.substitute binding
    refine (Source.makes_ask answered statement.request).bind ?_
    let below := fun candidate =>
      (childOf statement binding candidate).toList.flatMap (visits answers rest)
    let grown := fun candidate => (childOf statement binding candidate).bind
      fun next => matcher.grow answers rest next (some candidate)
    refine (Run.makes_filterMapM _ below grown fun candidate _ => ?_).bind_quiet ?_
    · rw [← List.nil_append (below candidate)]
      refine (makes_childBinding statement binding candidate).bind ?_
      dsimp only [below, grown]
      cases childOf statement binding candidate with
      | none => exact Run.makes_pure none
      | some next =>
        rw [Option.toList_some, List.flatMap_singleton]
        exact ih next (some candidate)
    · rw [grow]
      split
      · exact Run.Makes.after_step (Journal.rests_report _) fun _ => Run.makes_pure none
      · exact Run.makes_pure _

theorem yields_expandFrom (steady : matcher.source.Answers answers)
    (decide : ∀ constraint ∈ matcher.constraints, constraint.Decides answers)
    {statements : List Statement} (filters : ∀ statement ∈ statements, statement.Decides)
    (binding : Binding) (matched : Option Triple) :
    (matcher.expandFrom statements binding matched).Yields
      (matcher.grow answers statements binding matched) :=
  (matcher.makes_expandFrom steady.answersOrFails statements binding matched).yields
    (Or.inl steady) (fine_calls steady decide filters binding)

end

end Matcher

namespace Tree

/-- The calls for an optional clause at a leaf with this binding. -/
def clauseCalls (source : Source) (answers : Request → List Triple) (leaf : Binding)
    (clause : Pattern) : List Call :=
  let grounded := clause.substitute leaf
  (Matcher.mk source grounded.constraints (some leaf)).calls answers grounded.statements
    (.unbound grounded.unbounds)

/-- The visits of an optional clause at a leaf with this binding. -/
def clauseVisits (answers : Request → List Triple) (leaf : Binding) (clause : Pattern) :
    List Visit :=
  let grounded := clause.substitute leaf
  Matcher.visits answers grounded.statements (.unbound grounded.unbounds)

mutual

/-- The bindings of the bound leaves, from left to right. -/
def boundLeaves : Tree → List Binding
  | inner _ _ children => boundLeavesAll children
  | leaf binding _ _ => if binding.isComplete then [binding] else []

def boundLeavesAll : List Tree → List Binding
  | [] => []
  | tree :: trees => boundLeaves tree ++ boundLeavesAll trees

end

section

variable {source : Source} {answers : Request → List Triple}

theorem silent_clauseCalls {clause : Pattern} (silent : clause.Silent) (leaf : Binding) :
    ∀ call ∈ clauseCalls source answers leaf clause, call.Silent :=
  Matcher.silent_calls silent _ _

theorem fine_clauseCalls (steady : source.Answers answers) {clause : Pattern}
    (decides : clause.Decides answers) (leaf : Binding) :
    ∀ call ∈ clauseCalls source answers leaf clause, call.Fine source answers := by
  have filters : ∀ statement ∈ (clause.substitute leaf).statements, statement.Decides :=
    List.forall_mem_map.mpr fun statement stated =>
      (decides.filters statement stated).substitute leaf
  exact Matcher.fine_calls steady decides.constraints filters _

theorem makes_matchClause (answered : source.AnswersOrFails answers) (leaf : Binding) (index : Nat)
    (clause : Pattern) :
    (matchClause source leaf index clause).Makes source answers
      (clauseCalls source answers leaf clause) (clauseVisits answers leaf clause)
      (clauseTree source answers leaf clause) := by
  refine Run.Makes.after_step Journal.rests_nodesSoFar fun _ => ?_
  refine (Matcher.makes_expandFrom ⟨source, _, some leaf⟩ answered _ _ none).bind_quiet ?_
  cases found : clauseTree source answers leaf clause with
  | none =>
    rw [clauseTree] at found
    rw [found]
    exact Run.Makes.after_step (Journal.rests_report _) fun _ => Run.makes_pure none
  | some tree =>
    rw [clauseTree] at found
    rw [found]
    exact Run.Makes.after_step Journal.rests_nodesSoFar fun _ =>
      Run.Makes.after_step (Journal.rests_report _) fun _ => Run.makes_pure _

theorem makes_matchClauses (answered : source.AnswersOrFails answers) (leaf : Binding)
    (index : Nat) (clauses : List Pattern) :
    (matchClauses source leaf index clauses).Makes source answers
      (clauses.flatMap (clauseCalls source answers leaf))
      (clauses.flatMap (clauseVisits answers leaf))
      (clauses.filterMap (clauseTree source answers leaf)) := by
  induction clauses generalizing index with
  | nil => exact Run.makes_pure []
  | cons clause clauses ih =>
    rw [List.flatMap_cons, List.flatMap_cons, List.filterMap_cons]
    refine (makes_matchClause answered leaf index clause).bind ((ih (index + 1)).bind_quiet ?_)
    cases clauseTree source answers leaf clause with
    | none => exact Run.makes_pure _
    | some tree => exact Run.makes_pure _

variable {clauses : List Pattern}

mutual

/-- Attaching makes the calls and the visits of the clauses at each bound leaf. -/
theorem makes_attach (answered : source.AnswersOrFails answers) :
    ∀ tree : Tree, (tree.attach source clauses).Makes source answers
      (tree.boundLeaves.flatMap fun leaf => clauses.flatMap (clauseCalls source answers leaf))
      (tree.boundLeaves.flatMap fun leaf => clauses.flatMap (clauseVisits answers leaf))
      (tree.dress fun leaf => clauses.filterMap (clauseTree source answers leaf))
  | inner binding matched children =>
    (makes_attachAll answered children).bind_quiet (Run.makes_pure _)
  | leaf binding matched optionals => by
    rw [attach, dress, boundLeaves]
    split
    · rw [List.flatMap_singleton, List.flatMap_singleton]
      exact (makes_matchClauses answered binding 0 clauses).bind_quiet (Run.makes_pure _)
    · exact Run.makes_pure _

theorem makes_attachAll (answered : source.AnswersOrFails answers) :
    ∀ trees : List Tree, (attachAll source clauses trees).Makes source answers
      ((boundLeavesAll trees).flatMap fun leaf =>
        clauses.flatMap (clauseCalls source answers leaf))
      ((boundLeavesAll trees).flatMap fun leaf => clauses.flatMap (clauseVisits answers leaf))
      (dressAll (fun leaf => clauses.filterMap (clauseTree source answers leaf)) trees)
  | [] => Run.makes_pure []
  | tree :: trees => by
    rw [attachAll, boundLeavesAll, List.flatMap_append, List.flatMap_append]
    exact (makes_attach answered tree).bind
      ((makes_attachAll answered trees).bind_quiet (Run.makes_pure _))

end

theorem yields_matchClause (steady : source.Answers answers) {clause : Pattern}
    (decides : clause.Decides answers) (leaf : Binding) (index : Nat) :
    (matchClause source leaf index clause).Yields (clauseTree source answers leaf clause) :=
  (makes_matchClause steady.answersOrFails leaf index clause).yields (Or.inl steady)
    (fine_clauseCalls steady decides leaf)

theorem yields_attach (steady : source.Answers answers)
    (decide : ∀ clause ∈ clauses, clause.Decides answers) (tree : Tree) :
    (tree.attach source clauses).Yields
      (tree.dress fun leaf => clauses.filterMap (clauseTree source answers leaf)) := by
  refine (makes_attach steady.answersOrFails tree).yields (Or.inl steady) ?_
  simp only [List.forall_mem_flatMap]
  exact fun leaf _ clause member => fine_clauseCalls steady (decide clause member) leaf

end

end Tree

end TripleJoin
