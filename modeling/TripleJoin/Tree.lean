import TripleJoin.Graph
import TripleJoin.Binding
/-!
Search trees of matching. Each level below the root adds the triple matched by one more statement;
a leaf that binds every variable stands for a solution of the main pattern, and carries a tree for
each optional clause that matches it. Dead ends are not in the tree.
-/
namespace TripleJoin

inductive Tree where
  | inner (binding : Binding) (matched : Option Triple) (children : List Tree)
  | leaf (binding : Binding) (matched : Option Triple) (optionals : List Tree)

/-- The left outer join of rows with the rows of an optional clause: every combination, or the rows
    as they are if the clause has none. -/
def leftJoin (rows extra : List Binding) : List Binding :=
  if extra.isEmpty then rows else rows.flatMap fun row => extra.map row.merge

namespace Tree

def binding : Tree → Binding
  | inner binding _ _ => binding
  | leaf binding _ _ => binding

/-- The triple matched to reach the node; a root has none. -/
def matched : Tree → Option Triple
  | inner _ matched _ => matched
  | leaf _ matched _ => matched

def children : Tree → List Tree
  | inner _ _ children => children
  | leaf .. => []

def optionals : Tree → List Tree
  | inner .. => []
  | leaf _ _ optionals => optionals

def isLeaf : Tree → Bool
  | inner .. => false
  | leaf .. => true

/-- Whether this is a leaf with a value for every variable. Only such a leaf yields rows. -/
def isBound : Tree → Bool
  | inner .. => false
  | leaf binding _ _ => binding.isComplete

mutual

/-- The number of nodes, those of optional clauses included. -/
def nodeCount : Tree → Nat
  | inner _ _ children => 1 + nodeCountAll children
  | leaf _ _ optionals => 1 + nodeCountAll optionals

def nodeCountAll : List Tree → Nat
  | [] => 0
  | tree :: trees => nodeCount tree + nodeCountAll trees

end

mutual

/-- The rows of a tree in match order. Optional clauses are joined in one after the other. -/
def solutions : Tree → List Binding
  | inner _ _ children => (solutionsEach children).flatten
  | leaf binding _ optionals =>
    if binding.isComplete then (solutionsEach optionals).foldl leftJoin [binding] else []

def solutionsEach : List Tree → List (List Binding)
  | [] => []
  | tree :: trees => solutions tree :: solutionsEach trees

end

mutual

/-- The triples on the way to each bound leaf, leaf after leaf, behind those of `path`. -/
def evidenceBelow (path : List Triple) : Tree → List Triple
  | inner _ matched children => evidenceBelowAll (path ++ matched.toList) children
  | leaf binding matched _ => if binding.isComplete then path ++ matched.toList else []

def evidenceBelowAll (path : List Triple) : List Tree → List Triple
  | [] => []
  | tree :: trees => evidenceBelow path tree ++ evidenceBelowAll path trees

end

/-- The triples that the main pattern matched on the way to some bound leaf. -/
def evidence (tree : Tree) : Graph := Graph.ofList (evidenceBelow [] tree)

end Tree

end TripleJoin
