import TripleJoin.Engine
import TripleJoin.NestedLoop
/-!
Checks of the laws that every query should obey. Each returns the violations that it finds.
-/
namespace TripleJoin.Simulation

structure Violation where
  description : String
  /-- Which of the simulated queries is meant. -/
  iteration : Nat
  context : String
  deriving DecidableEq

namespace Check

/-- A violation, unless the law holds. -/
def expect (holds : Bool) (iteration : Nat) (description context : String) : List Violation :=
  if holds then [] else [⟨description, iteration, context⟩]

def patternsOf (pattern : Pattern) : List TriplePattern :=
  pattern.statements.map Statement.toTriplePattern

/-- The rows of the query are those of the left outer join by nested loops, in any order. -/
def outerJoin (graph : Graph) (main : Pattern) (optionals : List Pattern) (query : Query)
    (iteration : Nat) : List Violation :=
  let expected := NestedLoop.outerJoin graph.toList (patternsOf main) (optionals.map patternsOf)
  let actual := query.solutions.map Assignment.ofBinding
  expect (sameTally actual expected) iteration "rows differ from naive outer join"
    ("engine produced " ++ toString actual.length ++ " rows, reference produced " ++
      toString expected.length)

/-- Offset and limit cut a slice out of the full result, and distinct rows do not repeat. -/
def slicing (query : Query) (isDistinct : Bool) (offset limit iteration : Nat) :
    Logged (List Violation) := do
  let full ← (query.select { distinct := isDistinct }).run
  let part ← (query.select { distinct := isDistinct, offset := offset, limit := some limit }).run
  match full, part with
  | .ok full, .ok part =>
    return expect (part.rows = (full.rows.drop offset).take limit) iteration
        "slice does not match full result"
        ("offset " ++ toString offset ++ ", limit " ++ toString limit ++ ", distinct " ++
          toString isDistinct) ++
      expect (!isDistinct || (distinct full.rows).length == full.rows.length) iteration
        "distinct result repeats a row" ""
  | _, _ => return expect false iteration "select failed" ""

/-- Ordering by a column only permutes the rows. -/
def ordering (query : Query) (key : Variable) (iteration : Nat) : Logged (List Violation) := do
  let plain ← (query.select { distinct := false }).run
  let sorted ← (query.select
    { distinct := false, orderBy := some (.columns [key] none) }).run
  match plain, sorted with
  | .ok plain, .ok sorted =>
    return expect (sameTally plain.rows sorted.rows) iteration
      "ordering changed the multiset of rows" ("key " ++ key.text)
  | _, _ => return expect false iteration "select failed" ""

/-- A query that is read twice gives the same twice. -/
def repeatable (query : Query) (iteration : Nat) : Logged (List Violation) := do
  let first ← (query.select { distinct := false }).run
  let second ← (query.select { distinct := false }).run
  let sameRows := match first, second with
    | .ok first, .ok second => decide (first.rows = second.rows)
    | _, _ => false
  let graph ← query.construct none 0
  let again ← query.construct none 0
  return expect sameRows iteration "select is not repeatable" "" ++
    expect (graph.size == again.size && (graph.difference again).isEmpty) iteration
      "construct is not repeatable" "" ++
    expect (query.ask == !query.solutions.isEmpty) iteration "ask disagrees with solutions" ""

end Check

end TripleJoin.Simulation
