import TripleJoin.Sorting
import TripleJoin.Term.Order
import TripleJoin.TriplePattern
/-!
Matching by nested loops: each statement is tried on every triple of the list, with no index, no
tree and no substitution. This is the reference that matching in trees is measured against.
-/
namespace TripleJoin

/-- Variables with their values; of two entries for a variable the first counts. -/
abbrev Assignment := List (Variable × Term)

namespace Assignment

def compareEntry (a b : Variable × Term) : Ordering :=
  (a.1.compare b.1).then (a.2.compare b.2)

/-- Sorted by variable, so that equal assignments are equal lists. -/
def sorted (assignment : Assignment) : Assignment := Sorting.sort compareEntry assignment

/-- Extends an assignment at its end so that the slot becomes the term, if it can. -/
def unify (assignment : Assignment) (slot : Slot) (term : Term) : Option Assignment :=
  match slot with
  | .fixed expected => if expected = term then some assignment else none
  | .free v =>
    match assignment.lookup v with
    | some value => if value = term then some assignment else none
    | none => some (assignment ++ [(v, term)])

def unifyTriple (assignment : Assignment) (pattern : TriplePattern) (triple : Triple) :
    Option Assignment := do
  let assignment ← assignment.unify pattern.subject triple.subject
  let assignment ← assignment.unify pattern.predicate triple.predicate
  assignment.unify pattern.object triple.object

/-- The first assignment, with the entries of the second for other variables. -/
def join (assignment extra : Assignment) : Assignment :=
  (extra.foldl (fun joined entry =>
    if (joined.lookup entry.1).isSome then joined else joined ++ [entry]) assignment).sorted

/-- The bound variables of a binding. -/
def ofBinding (binding : Binding) : Assignment := sorted binding.bound

end Assignment

namespace NestedLoop

/-- The extensions of an assignment that turn every pattern into a triple of the list. -/
def search (triples : List Triple) : List TriplePattern → Assignment → List Assignment
  | [], current => [current]
  | pattern :: patterns, current => triples.flatMap fun triple =>
    match current.unifyTriple pattern triple with
    | none => []
    | some next => search triples patterns next

/-- The solutions that agree with `fixed`, less what is fixed, each sorted by variable. -/
def solutions (triples : List Triple) (patterns : List TriplePattern) (fixed : Assignment) :
    List Assignment :=
  (search triples patterns fixed).map fun found => Assignment.sorted (found.drop fixed.length)

/-- One main solution with all matches of the optional clauses: each clause is joined in, unless it
    has no match. -/
def outerRows (triples : List Triple) (base : Assignment) (clauses : List (List TriplePattern)) :
    List Assignment :=
  clauses.foldl (fun rows clause =>
    let found := solutions triples clause base
    if found.isEmpty then rows else rows.flatMap fun row => found.map row.join) [base]

/-- The left outer join of the main patterns with the optional clauses. -/
def outerJoin (triples : List Triple) (main : List TriplePattern)
    (clauses : List (List TriplePattern)) : List Assignment :=
  (solutions triples main []).flatMap fun base => outerRows triples base clauses

end NestedLoop

end TripleJoin
