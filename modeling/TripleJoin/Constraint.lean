import TripleJoin.Store
/-!
Constraints accept or reject a complete binding. How one reaches its verdict is a tree of questions
to the store, so that a constraint without a question is seen to depend on the binding alone.
-/
namespace TripleJoin

inductive Decision where
  | verdict (result : Except CallbackError Bool)
  /-- Reports an event first. -/
  | remark (event : Event) (rest : Decision)
  | ask (request : Request) (next : Except StoreError (List Triple) → Decision)

namespace Decision

def yes : Decision := .verdict (.ok true)

def no : Decision := .verdict (.ok false)

def ofBool (holds : Bool) : Decision := .verdict (.ok holds)

def run (source : Source) : Decision → Run CallbackError Bool
  | .verdict result => Run.ofExcept result
  | .remark event rest => do
    report event
    rest.run source
  | .ask request next => do
    let answer ← (source.ask request).run
    (next answer).run source

end Decision

structure Constraint where
  decide : Binding → Decision
  watched : Bool := false

namespace Constraint

/-- Asks the constraint, which stands at place `index` of its list. -/
def apply (constraint : Constraint) (index : Nat) (binding : Binding) (source : Source) :
    Run CallbackError Bool := do
  note (.constraint index binding constraint.watched)
  (constraint.decide binding).run source

/-- A constraint that needs no store. -/
def ofCheck (check : Binding → Except CallbackError Bool) : Constraint :=
  ⟨fun binding => .verdict (check binding), false⟩

def ofPredicate (holds : Binding → Bool) : Constraint :=
  ofCheck fun binding => .ok (holds binding)

def const (verdict : Bool) : Constraint := ofPredicate fun _ => verdict

def failing (message : String) : Constraint := ofCheck fun _ => .error ⟨message⟩

/-- Fails where the variable has exactly this value and holds everywhere else. -/
def failingOn (v : Variable) (term : Term) (message : String) : Constraint :=
  ofCheck fun binding => if binding.get? v = some term then .error ⟨message⟩ else .ok true

/-- The store has an answer to the pattern under the binding, or has none, as `wanted` says. -/
def answered (pattern : TriplePattern) (wanted : Bool) : Constraint :=
  ⟨fun binding => .ask (pattern.substitute binding).request fun
    | .ok triples => .ofBool (triples.isEmpty != wanted)
    | .error error => .verdict (.error ⟨error.message⟩), false⟩

end Constraint

end TripleJoin
