import TripleJoin.Statement
import TripleJoin.Constraint
/-!
Graph patterns: statements that must all match, constraints on what they bind, and the blank nodes
that the pattern introduces. A pattern keeps the variables of its statements in the order in which
they first appear.
-/
namespace TripleJoin

structure Pattern where
  statements : List Statement
  constraints : List Constraint
  /-- The variables of the statements, each at its first appearance. -/
  unbounds : List Variable
  /-- The labels of the blank nodes that are new in every instance of the pattern. -/
  labels : List String

/-- Appends an element that the list does not have. -/
def addNew {α : Type} [DecidableEq α] (xs : List α) (x : α) : List α :=
  if x ∈ xs then xs else xs ++ [x]

namespace Pattern

def empty : Pattern := ⟨[], [], [], []⟩

def isEmpty (pattern : Pattern) : Bool := pattern.statements.isEmpty

/-- The variables of a list of statements, each at its first appearance. -/
def variablesOf (statements : List Statement) : List Variable :=
  (statements.flatMap fun statement => statement.freeVariables).foldl addNew []

def add (pattern : Pattern) (statement : Statement) : Pattern :=
  { pattern with
    statements := pattern.statements ++ [statement]
    unbounds := statement.freeVariables.foldl addNew pattern.unbounds }

def addAll (pattern : Pattern) (statements : List Statement) : Pattern :=
  statements.foldl add pattern

/-- Puts statements in front of the others. -/
def prepend (pattern : Pattern) (statements : List Statement) : Pattern :=
  { pattern with
    statements := statements ++ pattern.statements
    unbounds := variablesOf (statements ++ pattern.statements) }

def declare (pattern : Pattern) (label : String) : Pattern :=
  { pattern with labels := addNew pattern.labels label }

def declareAll (pattern : Pattern) (labels : List String) : Pattern :=
  labels.foldl declare pattern

def constrain (pattern : Pattern) (constraints : List Constraint) : Pattern :=
  { pattern with constraints := pattern.constraints ++ constraints }

def ofStatements (statements : List Statement) : Pattern := empty.addAll statements

/-- The first pattern with the statements, constraints and labels of the second behind its own. -/
def merge (a b : Pattern) : Pattern :=
  ((a.addAll b.statements).constrain b.constraints).declareAll b.labels

def owns (pattern : Pattern) (label : String) : Bool := label ∈ pattern.labels

/-- Replaces bound variables by their values; they are inherited and no longer to be solved. -/
def substitute (pattern : Pattern) (binding : Binding) : Pattern :=
  { pattern with
    statements := pattern.statements.map fun statement => statement.substitute binding
    unbounds := pattern.unbounds.filter fun v => !binding.isBound v }

end Pattern

end TripleJoin
