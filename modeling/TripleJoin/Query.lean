import TripleJoin.Matcher
import TripleJoin.Solution
/-!
Queries that have been matched, ready to be read: the tree of one main pattern, or the union of two
queries, whose rows follow one another. Reading a query matches nothing again.
-/
namespace TripleJoin

inductive Query where
  /-- There is no root if the pattern clashed. -/
  | tree (root : Option Tree) (store : Store) (nulls : NullOrdering)
  | union (first second : Query)

namespace Query

def isUnion : Query → Bool
  | tree .. => false
  | union .. => true

def root? : Query → Option Tree
  | tree root _ _ => root
  | union .. => none

/-- A union places unbound values as its first query does. -/
def nulls : Query → NullOrdering
  | tree _ _ nulls => nulls
  | union first _ => first.nulls

/-- The full solutions, in match order and branch after branch. -/
def solutions : Query → List Binding
  | tree root _ _ => (root.map Tree.solutions).getD []
  | union first second => first.solutions ++ second.solutions

def heading (query : Query) : List Variable := Solution.heading query.solutions

/-- Whether there is a solution. -/
def ask (query : Query) : Bool := !query.solutions.isEmpty

def select (query : Query) (options : SelectOptions) : Run QueryError Table := do
  let solutions := query.solutions
  let table ← (Run.ofExcept (Solution.arrange query.nulls options solutions)).adapt
    QueryError.configuration
  report (.selected solutions.length table.rows.length)
  return table

/-- The triples that the main patterns matched for some solution. -/
def evidence : Query → Graph
  | tree root _ _ => (root.map Tree.evidence).getD .empty
  | union first second => first.evidence.union second.evidence

end Query

/-- Sixteen hexadecimal digits. -/
def hexadecimal16 (id : UInt64) : String :=
  let digits := Nat.toDigits 16 id.toNat
  String.ofList (List.replicate (16 - digits.length) '0' ++ digits)

namespace Template

/-- The label of the blank node that a template's own label stands for in one row of one call. -/
def mint (call : UInt64) (row : Nat) (label : String) : String :=
  label ++ "_" ++ hexadecimal16 call ++ "_" ++ toString row

/-- The term for a slot: the value of a variable, a fresh blank node for a label of the template's
    own, and any other term itself. -/
def resolve (template : Pattern) (call : UInt64) (row : Nat) (solution : Binding) :
    Slot → Option Term
  | .free v => solution.get? v
  | .fixed (.blank label) =>
    some (.blank (if template.owns label then mint call row label else label))
  | .fixed term => some term

/-- The triples of one row. A statement with an unbound variable or a literal for its subject gives
    none. -/
def instantiateRow (template : Pattern) (call : UInt64) (row : Nat) (solution : Binding) :
    List Triple :=
  template.statements.filterMap fun statement =>
    statement.instantiate (resolve template call row solution)

def instantiate (template : Pattern) (call : UInt64) (solutions : List Binding) : Graph :=
  Graph.ofList (solutions.zipIdx.flatMap fun entry =>
    instantiateRow template call entry.2 entry.1)

end Template

namespace Query

/-- The graph of the matched triples or, with a template, of its instances. The call numbers the
    fresh blank nodes of this graph. -/
def construct (query : Query) (template : Option Pattern) (call : UInt64) : Logged Graph := do
  let graph := match template with
    | none => query.evidence
    | some template => Template.instantiate template call query.solutions
  report (.constructed graph.size)
  return graph

end Query

end TripleJoin
