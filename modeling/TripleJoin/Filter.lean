import TripleJoin.Term.Order
import TripleJoin.Journal
import TripleJoin.Error
/-!
Filters accept or reject the candidate triples of one statement, or fail.
-/
namespace TripleJoin

structure Filter where
  check : Triple → Except CallbackError Bool
  watched : Bool := false

namespace Filter

def apply (filter : Filter) (triple : Triple) : Run CallbackError Bool := do
  note (.filter triple filter.watched)
  Run.ofExcept (filter.check triple)

def ofPredicate (accepts : Triple → Bool) : Filter := ⟨fun triple => .ok (accepts triple), false⟩

def const (verdict : Bool) : Filter := ofPredicate fun _ => verdict

/-- The component passes a test of terms. -/
def component (position : Position) (accepts : Term → Bool) : Filter :=
  ofPredicate fun triple => accepts (triple.get position)

def equals (position : Position) (term : Term) : Filter := component position (· = term)

/-- The component comes before a term in the order of terms. -/
def before (position : Position) (term : Term) : Filter :=
  component position fun value => value.compare term = .lt

def same (a b : Position) : Filter :=
  ofPredicate fun triple => triple.get a = triple.get b

def failing (message : String) : Filter := ⟨fun _ => .error ⟨message⟩, false⟩

/-- Fails on one term at the position and accepts every other. -/
def failingOn (position : Position) (term : Term) (message : String) : Filter :=
  ⟨fun triple => if triple.get position = term then .error ⟨message⟩ else .ok true, false⟩

end Filter

end TripleJoin
