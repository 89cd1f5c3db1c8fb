/-!
Doubles other than NaN, as a sign and the code of a magnitude, with rounding to nearest (a tie goes
to the even neighbour) and the total order in which negative zero comes before zero.
-/
namespace TripleJoin

/-- The code of infinity. A smaller code `e * 2 ^ 52 + f` with `f < 2 ^ 52` stands for
    `f * 2 ^ -1074` if `e = 0` and for `(2 ^ 52 + f) * 2 ^ (e - 1075)` otherwise. -/
def infinityCode : Nat := 0x7ff0000000000000

structure Binary64 where
  negative : Bool
  code : Nat
  code_le : code ≤ infinityCode
  deriving DecidableEq

namespace Binary64

/-- The 64 bits that hold the double. -/
def bits (x : Binary64) : Nat :=
  (if x.negative then 1 <<< 63 else 0) + x.code

/-- Codes grow with magnitudes, so these integers are in the total order of the doubles. -/
def rank (x : Binary64) : Int :=
  if x.negative then -(x.code : Int) - 1 else x.code

def compare (x y : Binary64) : Ordering :=
  Ord.compare x.rank y.rank

/-- Like `rank`, with one place for both zeros. -/
def magnitudeRank (x : Binary64) : Int :=
  if x.negative then -(x.code : Int) else x.code

/-- Less than as numbers: neither zero is less than the other. -/
def isLess (x y : Binary64) : Bool :=
  x.magnitudeRank < y.magnitudeRank

def zero (negative : Bool) : Binary64 := ⟨negative, 0, Nat.zero_le _⟩

def infinity (negative : Bool) : Binary64 := ⟨negative, infinityCode, Nat.le_refl _⟩

/-- The natural number nearest to `num / den`, the even one of two. -/
def nearest (num den : Nat) : Nat :=
  let whole := num / den
  let rest := 2 * (num % den)
  if rest < den then whole
  else if den < rest then whole + 1
  else whole + whole % 2

/-- The greatest `e` with `2 ^ e ≤ num / den`, for positive `num` and `den`. -/
def exponent (num den : Nat) : Int :=
  let e : Int := (num.log2 : Int) - den.log2
  if den <<< e.toNat ≤ num <<< (-e).toNat then e else e - 1

/-- The code nearest to `num / den`. The significand is rounded at the place `2 ^ quantum`, and one
    that is rounded up to `2 ^ 53` carries into the next exponent by itself. -/
def codeOfRatio (num den : Nat) : Nat :=
  if num = 0 then 0
  else
    let quantum := max (exponent num den - 52) (-1074)
    let significand := nearest (num <<< (-quantum).toNat) (den <<< quantum.toNat)
    min infinityCode (((quantum + 1074).toNat <<< 52) + significand)

theorem codeOfRatio_le (num den : Nat) : codeOfRatio num den ≤ infinityCode := by
  unfold codeOfRatio
  split
  · exact Nat.zero_le _
  · exact Nat.min_le_left _ _

/-- The double nearest to the signed fraction `num / den`. -/
def ofRatio (negative : Bool) (num den : Nat) : Binary64 :=
  ⟨negative, codeOfRatio num den, codeOfRatio_le num den⟩

def ofInt (n : Int) : Binary64 :=
  ofRatio (n < 0) n.natAbs 1

/-- The double nearest to `digits * 10 ^ exponent` with the given sign. Beyond the two limits the
    result is infinity or zero whatever the digits, and the power is not computed. -/
def ofDecimal (negative : Bool) (digits : Nat) (exponent : Int) : Binary64 :=
  if digits = 0 then zero negative
  else if 400 < exponent then infinity negative
  else if exponent < -(400 + digits.log2 : Int) then zero negative
  else ofRatio negative (digits * Nat.pow 10 exponent.toNat) (Nat.pow 10 (-exponent).toNat)

end Binary64

end TripleJoin
