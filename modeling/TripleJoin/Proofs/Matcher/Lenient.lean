import TripleJoin.Proofs.Matcher.Calls
/-!
The search in which no callback fails: one that would fail answers no. It finds the same trees with
the same calls, since the trees and the calls of a search already count a failure as a no.
-/
namespace TripleJoin

def Filter.lenient (filter : Filter) : Filter :=
  { filter with check := fun triple => .ok (isYes (filter.check triple)) }

def Statement.lenient (statement : Statement) : Statement :=
  { statement with filter := statement.filter.map Filter.lenient }

def Decision.lenient : Decision → Decision
  | .verdict result => .verdict (.ok (isYes result))
  | .remark event rest => .remark event rest.lenient
  | .ask request next => .ask request fun answer => (next answer).lenient

def Constraint.lenient (constraint : Constraint) : Constraint :=
  { constraint with decide := fun binding => (constraint.decide binding).lenient }

def Pattern.lenient (pattern : Pattern) : Pattern :=
  { pattern with
    statements := pattern.statements.map Statement.lenient
    constraints := pattern.constraints.map Constraint.lenient }

def Call.lenient : Call → Call
  | .request wanted => .request wanted
  | .filter pattern test triple => .filter pattern test.lenient triple
  | .constraint rule index binding => .constraint rule.lenient index binding

section

variable {source other : Source} {answers : Request → List Triple}

theorem Statement.passes_lenient (statement : Statement) (triple : Triple) :
    statement.lenient.passes triple = statement.passes triple := by
  unfold passes lenient
  cases statement.filter <;> rfl

theorem Statement.filterCalls_lenient (statement : Statement) (triple : Triple) :
    statement.lenient.filterCalls triple = (statement.filterCalls triple).map Call.lenient := by
  unfold filterCalls lenient
  cases statement.filter <;> rfl

theorem Decision.outcome_lenient (decision : Decision) :
    decision.lenient.outcome answers = .ok (isYes (decision.outcome answers)) := by
  induction decision with
  | verdict result => rfl
  | remark event rest ih => exact ih
  | ask request next ih => exact ih _

theorem Decision.Silent.lenient {decision : Decision} (silent : decision.Silent) :
    decision.lenient.Silent := by
  induction decision with
  | verdict result => trivial
  | remark event rest ih => exact ih silent
  | ask request next => exact absurd silent id

theorem Constraint.holds_lenient (constraint : Constraint) (binding : Binding) :
    constraint.lenient.holds answers binding = constraint.holds answers binding := by
  unfold holds lenient
  rw [Decision.outcome_lenient]
  rfl

theorem Call.entry_lenient (same : other.name = source.name)
    (watched : other.watched = source.watched) (call : Call) :
    call.lenient.entry other = call.entry source := by
  cases call with
  | request wanted => rw [lenient, entry, same, watched]; rfl
  | filter pattern test triple => rfl
  | constraint rule index binding => rfl

theorem Call.Silent.lenient {call : Call} (silent : call.Silent) : call.lenient.Silent := by
  cases call with
  | constraint rule index binding => exact Decision.Silent.lenient silent
  | _ => trivial

/-- Where the source always answers, a lenient call does not fail. -/
theorem Call.error?_lenient (steady : other.Answers answers) (asked : Nat) (call : Call) :
    call.lenient.error? other answers asked = none := by
  cases call with
  | request wanted => rw [lenient, error?, steady]; rfl
  | filter pattern test triple => rfl
  | constraint rule index binding =>
    rw [lenient, error?, Constraint.lenient, Decision.outcome_lenient]
    rfl

namespace Matcher

/-- The search over another source in which no constraint fails. -/
def lenient (matcher : Matcher) (source : Source) : Matcher :=
  ⟨source, matcher.constraints.map Constraint.lenient, matcher.inherited⟩

variable (matcher : Matcher)

theorem childOf_lenient (statement : Statement) (binding : Binding) :
    childOf statement.lenient binding = childOf statement binding := by
  funext candidate
  rw [childOf, Statement.passes_lenient]
  rfl

theorem admitsLeaf_lenient (binding : Binding) :
    (matcher.lenient other).admitsLeaf answers binding = matcher.admitsLeaf answers binding := by
  unfold admitsLeaf lenient
  rw [List.all_map]
  simp only [Function.comp_def, Constraint.holds_lenient]
  rfl

theorem grow_lenient (statements : List Statement) (binding : Binding) (matched : Option Triple) :
    (matcher.lenient other).grow answers (statements.map Statement.lenient) binding matched =
      matcher.grow answers statements binding matched := by
  induction statements generalizing binding matched with
  | nil => rw [List.map_nil, grow, grow, admitsLeaf_lenient]
  | cons head rest ih =>
    have same : head.lenient.substitute binding = (head.substitute binding).lenient := rfl
    rw [List.map_cons, grow, grow, same, childOf_lenient]
    simp only [ih]
    rfl

theorem constraintCalls_lenient (seen : Binding) (index : Nat) (constraints : List Constraint) :
    constraintCalls answers seen index (constraints.map Constraint.lenient) =
      (constraintCalls answers seen index constraints).map Call.lenient := by
  induction constraints generalizing index with
  | nil => rfl
  | cons constraint constraints ih =>
    rw [List.map_cons, constraintCalls, constraintCalls, Constraint.holds_lenient, ih]
    cases constraint.holds answers seen <;> rfl

theorem calls_lenient (statements : List Statement) (binding : Binding) :
    (matcher.lenient other).calls answers (statements.map Statement.lenient) binding =
      (matcher.calls answers statements binding).map Call.lenient := by
  induction statements generalizing binding with
  | nil =>
    rw [List.map_nil, calls, calls]
    cases binding.isComplete with
    | false => rfl
    | true => exact constraintCalls_lenient _ _ _
  | cons head rest ih =>
    have same : head.lenient.substitute binding = (head.substitute binding).lenient := rfl
    rw [List.map_cons, calls, calls, same, childOf_lenient, List.map_cons, List.map_flatMap]
    refine congrArg _ (congrArg (List.flatMap · _) (funext fun candidate => ?_))
    rw [List.map_append, Statement.filterCalls_lenient]
    cases childOf (head.substitute binding) binding candidate with
    | none => rfl
    | some next => exact congrArg _ (ih next)

end Matcher

theorem Pattern.substitute_lenient (pattern : Pattern) (binding : Binding) :
    pattern.lenient.substitute binding = (pattern.substitute binding).lenient := by
  simp only [substitute, lenient, List.map_map]
  rfl

namespace Tree

theorem clauseTree_lenient (leaf : Binding) (clause : Pattern) :
    clauseTree other answers leaf clause.lenient = clauseTree source answers leaf clause := by
  unfold clauseTree
  rw [Pattern.substitute_lenient]
  exact (Matcher.mk source (clause.substitute leaf).constraints (some leaf)).grow_lenient _ _ _

theorem clauseCalls_lenient (leaf : Binding) (clause : Pattern) :
    clauseCalls other answers leaf clause.lenient =
      (clauseCalls source answers leaf clause).map Call.lenient := by
  unfold clauseCalls
  rw [Pattern.substitute_lenient]
  exact (Matcher.mk source (clause.substitute leaf).constraints (some leaf)).calls_lenient _ _

end Tree

end

end TripleJoin
