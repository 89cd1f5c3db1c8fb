import TripleJoin.Term.Numeric
/-!
The order of terms that sorting uses: blank nodes, then IRIs, then literals, and among literals the
numbers first. Numbers go by value; equal values, and all that are not numbers, go by how they are
written, so that only identical terms tie.
-/
namespace TripleJoin

namespace Literal

def compareWriting (a b : Literal) : Ordering :=
  (Ord.compare a.lexical b.lexical).then
    ((Ord.compare a.datatype b.datatype).then (Ord.compare a.language b.language))

def compare (a b : Literal) : Ordering :=
  match a.numeric, b.numeric with
  | some x, some y => (x.compare y).then (a.compareWriting b)
  | some _, none => .lt
  | none, some _ => .gt
  | none, none => a.compareWriting b

end Literal

namespace Term

def kindRank : Term → Nat
  | .blank _ => 0
  | .iri _ => 1
  | .literal _ => 2

def compare : Term → Term → Ordering
  | .blank a, .blank b => Ord.compare a b
  | .iri a, .iri b => Ord.compare a b
  | .literal a, .literal b => a.compare b
  | a, b => Ord.compare a.kindRank b.kindRank

/-- The order by value, for comparing rather than sorting: numbers by value, other literals of one
    datatype and one language by their text, and IRIs by theirs. No other pair is comparable. -/
def compareValues : Term → Term → Option Ordering
  | .iri a, .iri b => some (Ord.compare a b)
  | .literal a, .literal b =>
    match a.numeric, b.numeric with
    | some x, some y => some (x.compare y)
    | none, none =>
      if a.datatype = b.datatype ∧ a.language = b.language then
        some (Ord.compare a.lexical b.lexical)
      else none
    | _, _ => none
  | _, _ => none

end Term

end TripleJoin
