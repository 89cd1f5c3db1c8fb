import TripleJoin.Query
import TripleJoin.Walk
/-!
The surroundings of selected values: what walks from them reach in the store of their query.
-/
namespace TripleJoin

namespace Query

/-- Walks from the seeds in order, all into one graph. -/
def collectFrom (store : Store) (sense : Walk.Sense) (reached : Graph) :
    List Term → Run QueryError Graph
  | [] => pure reached
  | seed :: seeds => do
    let outcome ← Walk.collect store sense seed reached
    match outcome.failure with
    | some error => throw (.store error)
    | none => collectFrom store sense outcome.reached seeds

/-- Walks one way from the selected values that can be subjects. Each branch of a union is walked in
    its own store. -/
def walk (sense : Walk.Sense) (selection : Selection) : Query → Run QueryError Graph
  | tree root store nulls => do
    let table ← (tree root store nulls).select { selection := selection }
    let reached ← collectFrom store sense .empty (table.values.filter Term.isSubject)
    report (.clustered table.rows.length reached.size)
    return reached
  | union first second => do
    let a ← first.walk sense selection
    let b ← second.walk sense selection
    return a.union b

/-- What is reached backwards, then what is new forwards. -/
def cluster (query : Query) (selection : Selection) : Run QueryError Graph := do
  let backward ← query.walk .backward selection
  let forward ← query.walk .forward selection
  return backward.union forward

/-- The surroundings in the wanted directions. -/
def describe (query : Query) (selection : Selection) (forward backward : Bool) :
    Run QueryError Graph :=
  match forward, backward with
  | true, true => query.cluster selection
  | true, false => query.walk .forward selection
  | false, true => query.walk .backward selection
  | false, false => pure .empty

end Query

end TripleJoin
