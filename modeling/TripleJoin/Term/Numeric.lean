import TripleJoin.Term
import TripleJoin.Text.Blank
import TripleJoin.Number.Decimal
/-!
The numbers that literals stand for. A literal of the integer family is an exact integer of 128
bits; one that does not read as such an integer, and every other numeric literal, is a double.
-/
namespace TripleJoin

inductive Numeric where
  | integer (value : Int)
  | real (value : Binary64)
  deriving DecidableEq

namespace Numeric

def toBinary64 : Numeric → Binary64
  | .integer n => .ofInt n
  | .real x => x

/-- Two integers compare exactly, any other pair as doubles. -/
def compare : Numeric → Numeric → Ordering
  | .integer m, .integer n => Ord.compare m n
  | x, y => x.toBinary64.compare y.toBinary64

end Numeric

namespace Literal

def integerDatatypes : List String :=
  ["integer", "long", "int", "short", "byte", "nonNegativeInteger", "nonPositiveInteger",
    "positiveInteger", "negativeInteger", "unsignedLong", "unsignedInt", "unsignedShort",
    "unsignedByte"].map xsd

def realDatatypes : List String :=
  ["decimal", "double", "float"].map xsd

/-- The first integer beyond 128 bits with a sign, which is 2^127. -/
def integerLimit : Int := 0x80000000000000000000000000000000

/-- Reads an integer from -2^127 up to 2^127 - 1. -/
def integer? (cs : List Char) : Option Int :=
  (Decimal.integer? cs).filter fun n => -integerLimit ≤ n && n < integerLimit

/-- The number a literal stands for, if its datatype is numeric and its text, blanks at the ends
    aside, is a number. -/
def numeric (literal : Literal) : Option Numeric :=
  literal.datatype.bind fun datatype =>
    let lexical := Text.trim literal.lexical.toList
    let real := (Decimal.real? lexical).map Numeric.real
    if datatype ∈ integerDatatypes then ((integer? lexical).map Numeric.integer).or real
    else if datatype ∈ realDatatypes then real
    else none

end Literal

end TripleJoin
