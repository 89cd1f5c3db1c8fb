import TripleJoin.Term
/-!
Triples of terms, and requests that ask for the triples with given components.
-/
namespace TripleJoin

inductive Position where
  | subject
  | predicate
  | object
  deriving DecidableEq

structure Triple where
  subject : Term
  predicate : Term
  object : Term
  deriving DecidableEq, Hashable

/-- A component that is given must be met exactly; one that is not may be any term. -/
structure Request where
  subject : Option Term
  predicate : Option Term
  object : Option Term
  deriving DecidableEq

namespace Triple

def get (triple : Triple) : Position → Term
  | .subject => triple.subject
  | .predicate => triple.predicate
  | .object => triple.object

def text (triple : Triple) : String :=
  triple.subject.text ++ " " ++ triple.predicate.text ++ " " ++ triple.object.text ++ " ."

end Triple

namespace Request

/-- The request that every triple meets. -/
def any : Request := ⟨none, none, none⟩

def get (request : Request) : Position → Option Term
  | .subject => request.subject
  | .predicate => request.predicate
  | .object => request.object

/-- Whether a triple has the given components. -/
def admits (request : Request) (triple : Triple) : Bool :=
  request.subject.all (· = triple.subject) && request.predicate.all (· = triple.predicate) &&
    request.object.all (· = triple.object)

end Request

end TripleJoin
