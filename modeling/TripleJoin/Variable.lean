import TripleJoin.Term
/-!
Variables, and slots that hold a variable or a fixed term.
-/
namespace TripleJoin

/-- The name stands without its question mark. -/
structure Variable where
  name : String
  deriving DecidableEq, Hashable

inductive Slot where
  | fixed (term : Term)
  | free (v : Variable)
  deriving DecidableEq

namespace Variable

def compare (v w : Variable) : Ordering :=
  Ord.compare v.name w.name

def text (v : Variable) : String := "?" ++ v.name

end Variable

namespace Slot

def free? : Slot → Option Variable
  | .free v => some v
  | .fixed _ => none

def fixed? : Slot → Option Term
  | .fixed term => some term
  | .free _ => none

def text : Slot → String
  | .fixed term => term.text
  | .free v => v.text

end Slot

end TripleJoin
