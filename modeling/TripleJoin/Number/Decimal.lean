import TripleJoin.Number.Binary64
/-!
Numbers written in decimal: natural numbers and integers as a sign and digits, and reals with a
point, an exponent or the name of an infinity.
-/
namespace TripleJoin.Decimal

def value (digits : List Char) : Nat :=
  digits.foldl (fun n c => 10 * n + (c.toNat - '0'.toNat)) 0

/-- A non-empty run of digits and nothing else. -/
def digits? (cs : List Char) : Option Nat :=
  if cs.isEmpty || !cs.all Char.isDigit then none else some (value cs)

/-- Whether the text starts with a minus sign, and the text after its sign if it has one. -/
def cutSign : List Char → Bool × List Char
  | '-' :: cs => (true, cs)
  | '+' :: cs => (false, cs)
  | cs => (false, cs)

def integer? (cs : List Char) : Option Int :=
  let (negative, rest) := cutSign cs
  (digits? rest).map fun n => if negative then -(n : Int) else n

/-- A natural number may have a plus sign, not a minus sign. -/
def natural? : List Char → Option Nat
  | '+' :: cs => digits? cs
  | cs => digits? cs

/-- What may follow the digits of a real: nothing, or an exponent. -/
def exponent? : List Char → Option Int
  | [] => some 0
  | c :: cs => if c = 'e' ∨ c = 'E' then integer? cs else none

def fraction : List Char → List Char × List Char
  | '.' :: cs => cs.span Char.isDigit
  | cs => ([], cs)

/-- Reads a real. At least one digit stands before or after the point. A text that names no number,
    `nan` in particular, has no value. -/
def real? (cs : List Char) : Option Binary64 :=
  let (negative, rest) := cutSign cs
  let name := rest.map Char.toLower
  if name = "inf".toList ∨ name = "infinity".toList then some (.infinity negative)
  else
    let (whole, rest) := rest.span Char.isDigit
    let (part, rest) := fraction rest
    if whole.isEmpty && part.isEmpty then none
    else (exponent? rest).map fun e =>
      Binary64.ofDecimal negative (value (whole ++ part)) (e - part.length)

end TripleJoin.Decimal
