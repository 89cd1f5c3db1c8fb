import TripleJoin.Solution
/-!
Ready-made comparisons of whole solutions.
-/
namespace TripleJoin

abbrev Comparator := Binding → Binding → Ordering

namespace Comparator

/-- By the value of a variable, an unset one first. -/
def value (v : Variable) : Comparator := fun a b =>
  NullOrdering.first.compare Term.compare (a.get? v) (b.get? v)

def measured (measure : Binding → Nat) : Comparator := fun a b =>
  Ord.compare (measure a) (measure b)

/-- By the length in bytes of a literal's text; anything else counts as empty. -/
def literalLength (v : Variable) : Comparator :=
  measured fun solution =>
    (((solution.get? v).bind Term.literal?).map fun literal => literal.lexical.utf8ByteSize).getD 0

def size : Comparator := measured Binding.size

def boundCount : Comparator := measured fun solution => solution.bound.length

def equal : Comparator := fun _ _ => .eq

def reversed (compare : Comparator) : Comparator := fun a b => (compare a b).swap

end Comparator

end TripleJoin
