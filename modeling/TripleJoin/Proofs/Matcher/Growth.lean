import TripleJoin.Matcher
import TripleJoin.Proofs.Outcome
/-!
Expansion without its effects. When the source always gives the same answers and no filter and no
constraint fails, expansion yields the tree `grow`, and attaching clauses yields the tree `dress`.
A failed question counts as answered with no, so both trees are there for every pattern.
-/
namespace TripleJoin

/-- What a question to a filter or a constraint comes to; a failure counts as no. -/
def isYes (verdict : Except CallbackError Bool) : Bool :=
  verdict.toOption.getD false

namespace Statement

/-- Whether the filter, if there is one, accepts the triple. -/
def passes (statement : Statement) (triple : Triple) : Bool :=
  statement.filter.all fun filter => isYes (filter.check triple)

/-- The filter, if there is one, never fails. -/
def Decides (statement : Statement) : Prop :=
  ∀ filter ∈ statement.filter, ∀ triple, ∃ verdict, filter.check triple = .ok verdict

theorem Decides.substitute {statement : Statement} (decides : statement.Decides)
    (binding : Binding) : (statement.substitute binding).Decides :=
  decides

end Statement

namespace Decision

/-- Where the questions lead if the source answers them all. -/
def outcome (answers : Request → List Triple) : Decision → Except CallbackError Bool
  | .verdict result => result
  | .remark _ rest => rest.outcome answers
  | .ask request next => (next (.ok (answers request))).outcome answers

/-- The decision does not ask the store. -/
def Silent : Decision → Prop
  | .verdict _ => True
  | .remark _ rest => rest.Silent
  | .ask _ _ => False

end Decision

namespace Constraint

def holds (constraint : Constraint) (answers : Request → List Triple) (binding : Binding) : Bool :=
  isYes ((constraint.decide binding).outcome answers)

/-- The constraint never fails on a source with these answers. -/
def Decides (constraint : Constraint) (answers : Request → List Triple) : Prop :=
  ∀ binding, ∃ verdict, (constraint.decide binding).outcome answers = .ok verdict

def Silent (constraint : Constraint) : Prop :=
  ∀ binding, (constraint.decide binding).Silent

end Constraint

abbrev Pattern.Silent (pattern : Pattern) : Prop :=
  ∀ constraint ∈ pattern.constraints, constraint.Silent

namespace Matcher

def admitsLeaf (matcher : Matcher) (answers : Request → List Triple) (binding : Binding) : Bool :=
  matcher.constraints.all fun constraint => constraint.holds answers (matcher.view binding)

def childOf (statement : Statement) (binding : Binding) (candidate : Triple) : Option Binding :=
  if statement.passes candidate then binding.extended statement.toTriplePattern candidate else none

/-- The tree of all ways to match the statements; none for a clash. -/
def grow (matcher : Matcher) (answers : Request → List Triple) :
    List Statement → Binding → Option Triple → Option Tree
  | [], binding, matched =>
    if binding.isComplete && !matcher.admitsLeaf answers binding then none
    else some (.leaf binding matched [])
  | head :: rest, binding, matched =>
    let statement := head.substitute binding
    let children := (answers statement.request).filterMap fun candidate =>
      (childOf statement binding candidate).bind fun next =>
        matcher.grow answers rest next (some candidate)
    if children.isEmpty then none else some (.inner binding matched children)

end Matcher

end TripleJoin
