import TripleJoin.Graph
import TripleJoin.Pattern
import TripleJoin.Simulation.Random
/-!
Random graphs and patterns over small vocabularies, so that patterns join, clash and repeat values
often.
-/
namespace TripleJoin.Simulation

/-- The sizes of the vocabularies and of what is made from them. -/
structure Shape where
  nodes : Nat := 6
  predicates : Nat := 3
  literals : Nat := 3
  maxTriples : Nat := 24
  maxStatements : Nat := 3
  maxOptionals : Nat := 2
  variablePool : Nat := 4
  /-- How likely a slot of the main pattern holds a variable. -/
  variableRate : Binary64 := .ofRatio false 3 5

/-- A graph and a query on it. -/
structure Trial where
  graph : Graph
  main : Pattern
  optionals : List Pattern

section

variable {σ : Type}

/-- Draws a list of given length, the first element first. -/
def Random.repeat {α : Type} (draw : Random σ α) : Nat → Random σ (List α)
  | 0 => pure []
  | n + 1 => do
    let x ← draw
    let xs ← draw.repeat n
    return x :: xs

namespace Shape

variable [RandomSource σ]

def node (shape : Shape) : Random σ Term :=
  return .iri ("http://example.org/n" ++ toString (← Random.below shape.nodes))

def predicate (shape : Shape) : Random σ Term :=
  return .iri ("http://example.org/p" ++ toString (← Random.below shape.predicates))

/-- A node, or a literal in three of ten cases. -/
def object (shape : Shape) : Random σ Term := do
  if ← Random.chance (.ofRatio false 7 10) then shape.node
  else return .plain ("l" ++ toString (← Random.below shape.literals))

def triple (shape : Shape) : Random σ Triple := do
  let subject ← shape.node
  let predicate ← shape.predicate
  let object ← shape.object
  return ⟨subject, predicate, object⟩

def graph (shape : Shape) : Random σ Graph := do
  let count ← Random.between 0 shape.maxTriples
  return .ofList (← shape.triple.repeat count)

/-- A statement whose slots are drawn from these terms. -/
def statement (shape : Shape) (slot : Random σ Term → Random σ Slot) : Random σ Statement := do
  let subject ← slot shape.node
  let predicate ← slot shape.predicate
  let object ← slot shape.object
  return .ofPattern ⟨subject, predicate, object⟩

def mainSlot (shape : Shape) (term : Random σ Term) : Random σ Slot := do
  if (← Random.fraction).isLess shape.variableRate then
    return .free ⟨"v" ++ toString (← Random.below shape.variablePool)⟩
  else return .fixed (← term)

def main (shape : Shape) : Random σ Pattern := do
  let count ← Random.between 1 shape.maxStatements
  return .ofStatements (← (shape.statement shape.mainSlot).repeat count)

/-- A variable of the main pattern, one of two variables of the clause's own, or a term. -/
def optionalSlot (shared : List Variable) (clause : Nat) (term : Random σ Term) : Random σ Slot := do
  let roll ← Random.fraction
  if roll.isLess (.ofRatio false 35 100) && !shared.isEmpty then
    let index ← Random.below shared.length
    return .free (shared.getD index ⟨""⟩)
  else if roll.isLess (.ofRatio false 7 10) then
    return .free ⟨"opt" ++ toString clause ++ "_" ++ toString (← Random.below 2)⟩
  else return .fixed (← term)

/-- An optional clause whose new variables no other clause has, as the scope rule demands. -/
def optionalClause (shape : Shape) (shared : List Variable) (clause : Nat) : Random σ Pattern := do
  let count ← Random.between 1 2
  return .ofStatements (← (shape.statement (optionalSlot shared clause)).repeat count)

def optionalClauses (shape : Shape) (shared : List Variable) (clause : Nat) :
    Nat → Random σ (List Pattern)
  | 0 => pure []
  | n + 1 => do
    let first ← shape.optionalClause shared clause
    let rest ← shape.optionalClauses shared (clause + 1) n
    return first :: rest

def trial (shape : Shape) : Random σ Trial := do
  let graph ← shape.graph
  let main ← shape.main
  let count ← Random.between 0 shape.maxOptionals
  let optionals ← shape.optionalClauses main.unbounds 0 count
  return ⟨graph, main, optionals⟩

end Shape

end

end TripleJoin.Simulation
