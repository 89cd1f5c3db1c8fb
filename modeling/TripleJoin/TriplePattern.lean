import TripleJoin.Triple
import TripleJoin.Binding
/-!
Triple patterns: a slot for each component. A triple matches a pattern under a binding if some
values for the variables without one turn the pattern into the triple.
-/
namespace TripleJoin

structure TriplePattern where
  subject : Slot
  predicate : Slot
  object : Slot
  deriving DecidableEq

namespace Slot

/-- Replaces a bound variable by its value. -/
def substitute (slot : Slot) (binding : Binding) : Slot :=
  match slot with
  | .fixed term => .fixed term
  | .free v => ((binding.get? v).map Slot.fixed).getD (.free v)

end Slot

namespace TriplePattern

def slots (pattern : TriplePattern) : List Slot :=
  [pattern.subject, pattern.predicate, pattern.object]

/-- The variables in slot order, with repetitions. -/
def freeVariables (pattern : TriplePattern) : List Variable :=
  pattern.slots.filterMap Slot.free?

/-- Asks for the triples with the fixed terms of the pattern. -/
def request (pattern : TriplePattern) : Request :=
  ⟨pattern.subject.fixed?, pattern.predicate.fixed?, pattern.object.fixed?⟩

def substitute (pattern : TriplePattern) (binding : Binding) : TriplePattern :=
  ⟨pattern.subject.substitute binding, pattern.predicate.substitute binding,
    pattern.object.substitute binding⟩

/-- The triple whose components `resolve` finds; none if one is missing or the subject is a
    literal. -/
def instantiate (pattern : TriplePattern) (resolve : Slot → Option Term) : Option Triple := do
  let subject ← (resolve pattern.subject).filter Term.isSubject
  let predicate ← resolve pattern.predicate
  let object ← resolve pattern.object
  return ⟨subject, predicate, object⟩

def text (pattern : TriplePattern) : String :=
  "(" ++ pattern.subject.text ++ " " ++ pattern.predicate.text ++ " " ++ pattern.object.text ++ ")"

end TriplePattern

namespace Binding

/-- The binding after the pattern has matched the triple, with the same keys; none if it does
    not. -/
def extended (binding : Binding) (pattern : TriplePattern) (triple : Triple) : Option Binding := do
  let binding ← binding.matchSlot pattern.subject triple.subject
  let binding ← binding.matchSlot pattern.predicate triple.predicate
  binding.matchSlot pattern.object triple.object

end Binding

end TripleJoin
