import TripleJoin.Term.Order
import TripleJoin.Constraint
/-!
Ready-made constraints: comparisons of two operands by value, and tests of one variable. An operand
without a value, and a pair that has no order, make a comparison false.
-/
namespace TripleJoin

inductive Operand where
  | value (v : Variable)
  | fixed (term : Term)
  /-- The text of an IRI, the label of a blank node or the text of a literal, as a plain literal. -/
  | content (v : Variable)
  /-- The language tag of a literal, as a plain literal. -/
  | language (v : Variable)
  /-- The datatype of a literal, as an IRI. -/
  | datatype (v : Variable)
  deriving DecidableEq

namespace Operand

def contentOf : Term → String
  | .iri text => text
  | .blank label => label
  | .literal literal => literal.lexical

/-- Only a plain variable can lack a value; the other operands fall back on the empty literal. -/
def resolve (operand : Operand) (binding : Binding) : Option Term :=
  match operand with
  | .value v => binding.get? v
  | .fixed term => some term
  | .content v => some (.plain (((binding.get? v).map contentOf).getD ""))
  | .language v =>
    let language := ((binding.get? v).bind Term.literal?).bind Literal.language
    some (.plain (language.getD ""))
  | .datatype v =>
    let datatype := ((binding.get? v).bind Term.literal?).bind Literal.datatype
    some ((datatype.map Term.iri).getD (.plain ""))

end Operand

namespace Constraint

/-- Compares by value and reports a pair that cannot be compared. -/
def comparing (accepts : Ordering → Bool) (left right : Operand) : Constraint :=
  ⟨fun binding =>
    match left.resolve binding, right.resolve binding with
    | some a, some b =>
      match a.compareValues b with
      | some order => .ofBool (accepts order)
      | none => .remark (.incomparable a b) .no
    | _, _ => .no, false⟩

def less (left right : Operand) : Constraint := comparing Ordering.isLT left right

def lessOrEqual (left right : Operand) : Constraint := comparing Ordering.isLE left right

def greater (left right : Operand) : Constraint := comparing Ordering.isGT left right

def greaterOrEqual (left right : Operand) : Constraint := comparing Ordering.isGE left right

/-- Identical terms are equal, comparable or not. -/
def equal (left right : Operand) : Constraint :=
  ofPredicate fun binding =>
    match left.resolve binding, right.resolve binding with
    | some a, some b => a = b || a.compareValues b == some .eq
    | _, _ => false

/-- The variable has a value that passes the test. -/
def test (v : Variable) (accepts : Term → Bool) : Constraint :=
  ofPredicate fun binding => (binding.get? v).any accepts

def isBound (v : Variable) : Constraint := test v fun _ => true

def isIri (v : Variable) : Constraint := test v Term.isIri

def isBlank (v : Variable) : Constraint := test v Term.isBlank

def isLiteral (v : Variable) : Constraint := test v Term.isLiteral

end Constraint

end TripleJoin
