import TripleJoin.Pattern
import TripleJoin.Tree
/-!
Matching by backtracking. Each statement is asked of the source with the known values in place, and
every candidate that passes the filter and fits the binding is followed through the statements that
remain. Constraints are asked of bound leaves. A node without a surviving child is a clash.
-/
namespace TripleJoin

structure Matcher where
  source : Source
  constraints : List Constraint
  /-- The binding of the leaf that an optional clause is matched at; constraints see it too. -/
  inherited : Option Binding

namespace Matcher

/-- What constraints see of a binding. -/
def view (matcher : Matcher) (binding : Binding) : Binding :=
  match matcher.inherited with
  | none => binding
  | some inherited => binding.overlay inherited

def holdFrom (matcher : Matcher) (seen : Binding) (index : Nat) :
    List Constraint → Run QueryError Bool
  | [] => pure true
  | constraint :: rest => do
    let verdict ← (constraint.apply index seen matcher.source).adapt
      fun cause => .evaluation (.constraint cause)
    if verdict then matcher.holdFrom seen (index + 1) rest else pure false

/-- Asks the constraints in order until one does not hold. -/
def constraintsHold (matcher : Matcher) (binding : Binding) : Run QueryError Bool :=
  matcher.holdFrom (matcher.view binding) 0 matcher.constraints

/-- The end of the statements: a leaf, unless it is bound and breaks a constraint. -/
def finish (matcher : Matcher) (binding : Binding) (matched : Option Triple) :
    Run QueryError (Option Tree) := do
  if binding.isComplete then
    if ← matcher.constraintsHold binding then
      return some (.leaf binding matched [])
    else
      report .constraintClash
      return none
  else
    return some (.leaf binding matched [])

/-- The binding of a child, if the candidate passes the filter and fits. The statement has the known
    values in place. -/
def childBinding (statement : Statement) (binding : Binding) (candidate : Triple) :
    Run QueryError (Option Binding) := do
  let accepted ← (statement.accepts candidate).adapt
    fun cause => .evaluation (.filter statement.toTriplePattern cause)
  return if accepted then binding.extended statement.toTriplePattern candidate else none

def expandFrom (matcher : Matcher) :
    List Statement → Binding → Option Triple → Run QueryError (Option Tree)
  | [], binding, matched => do
    countNode
    matcher.finish binding matched
  | head :: rest, binding, matched => do
    countNode
    let statement := head.substitute binding
    let candidates ← (matcher.source.ask statement.request).adapt QueryError.store
    let children ← candidates.filterMapM fun candidate => do
      match ← childBinding statement binding candidate with
      | none => return none
      | some next => matcher.expandFrom rest next (some candidate)
    if children.isEmpty then
      report (.clash statement.toTriplePattern)
      return none
    else
      return some (.inner binding matched children)

/-- The tree of all ways to match the statements from a binding on; none for a clash. -/
def expand (matcher : Matcher) (binding : Binding) (statements : List Statement) :
    Run QueryError (Option Tree) :=
  matcher.expandFrom statements binding none

end Matcher

namespace Tree

/-- Matches an optional clause at a leaf with this binding. The values of the leaf are put in place
    first and are not solved again. -/
def matchClause (source : Source) (leaf : Binding) (index : Nat) (clause : Pattern) :
    Run QueryError (Option Tree) := do
  let grounded := clause.substitute leaf
  let matcher : Matcher := ⟨source, grounded.constraints, some leaf⟩
  let before ← nodesSoFar
  match ← matcher.expand (.unbound grounded.unbounds) grounded.statements with
  | some tree =>
    report (.optionalAttached index ((← nodesSoFar) - before))
    return some tree
  | none =>
    report (.optionalUnmatched index)
    return none

/-- The trees of the clauses that match, in order. -/
def matchClauses (source : Source) (leaf : Binding) (index : Nat) :
    List Pattern → Run QueryError (List Tree)
  | [] => pure []
  | clause :: rest => do
    let tree ← matchClause source leaf index clause
    let trees ← matchClauses source leaf (index + 1) rest
    return tree.toList ++ trees

mutual

/-- Matches every optional clause at every bound leaf. -/
def attach (source : Source) (clauses : List Pattern) : Tree → Run QueryError Tree
  | inner binding matched children => do
    return inner binding matched (← attachAll source clauses children)
  | leaf binding matched optionals => do
    if binding.isComplete then
      return leaf binding matched (optionals ++ (← matchClauses source binding 0 clauses))
    else
      return leaf binding matched optionals

def attachAll (source : Source) (clauses : List Pattern) : List Tree → Run QueryError (List Tree)
  | [] => pure []
  | tree :: trees => do
    let tree ← attach source clauses tree
    let trees ← attachAll source clauses trees
    return tree :: trees

end

end Tree

end TripleJoin
