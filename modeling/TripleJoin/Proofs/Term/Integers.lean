import Mathlib.Algebra.Ring.Int.Defs
import TripleJoin.Proofs.Constraint.Ranges
import TripleJoin.Proofs.Number.Spelling
/-!
Integers of 128 bits with a sign as literals. Whatever the datatype of the integer family and the
spelling, such a literal stands for its integer, and two of them compare as the integers do. Sorting
goes by the spelling only where the integers are the same.
-/
namespace TripleJoin

/-- The literal is an integer in one of its spellings, with any datatype of the integer family. -/
structure Literal.WritesInteger (literal : Literal) (n : Int) : Prop where
  family : ∃ datatype ∈ integerDatatypes, literal.datatype = some datatype
  writes : Decimal.Writes literal.lexical.toList n

/-- The integers of 128 bits with a sign. -/
def InRange (n : Int) : Prop := -2 ^ 127 ≤ n ∧ n ≤ 2 ^ 127 - 1

instance (n : Int) : Decidable (InRange n) :=
  inferInstanceAs (Decidable (-2 ^ 127 ≤ n ∧ n ≤ 2 ^ 127 - 1))

theorem Literal.integer?_of_writes {cs : List Char} {n : Int} (writes : Decimal.Writes cs n)
    (range : InRange n) : integer? (Text.trim cs) = some n := by
  have low : -integerLimit ≤ n := range.1
  have high : n < integerLimit := Int.lt_of_le_sub_one range.2
  simp [integer?, writes.integer?, low, high]

theorem Literal.WritesInteger.numeric {literal : Literal} {n : Int}
    (writes : literal.WritesInteger n) (range : InRange n) : literal.numeric = some (.integer n) := by
  obtain ⟨⟨datatype, member, typed⟩, spelled⟩ := writes
  simp [Literal.numeric, typed, member, integer?_of_writes spelled range]

theorem Literal.writesInteger_integer (n : Int) :
    (Literal.typed (toString n) (xsd "integer")).WritesInteger n :=
  ⟨⟨xsd "integer", by decide, rfl⟩, Decimal.writes_toString n⟩

theorem Int64.inRange (n : Int64) : InRange n.toInt := by
  have low := n.le_toInt
  have high := n.toInt_lt
  constructor <;> omega

namespace Term

section

variable {m n : Int} {a b : Literal} (first : a.WritesInteger m) (second : b.WritesInteger n)
  (range : InRange m) (range' : InRange n)
include first second range range'

theorem compareValues_of_writes :
    (literal a).compareValues (literal b) = some (Ord.compare m n) :=
  compareValues_of_numeric (first.numeric range) (second.numeric range')

theorem compare_of_writes (differ : m ≠ n) : (literal a).compare (literal b) = Ord.compare m n := by
  have strict : Ord.compare m n ≠ .eq := fun tie => differ (Int.compare_eq_eq.mp tie)
  exact compare_of_compareValues (compareValues_of_writes first second range range') strict

end

theorem compare_integer {m n : Int} (range : InRange m) (range' : InRange n) :
    (integer m).compare (integer n) = Ord.compare m n := by
  by_cases same : m = n
  · have alike : (integer n).compare (integer n) = .eq := Std.ReflCmp.compare_self
    rw [same, alike, Std.ReflOrd.compare_self]
  · exact compare_of_writes (Literal.writesInteger_integer m) (Literal.writesInteger_integer n)
      range range' same

/-- Integers of 128 bits, in any spelling and with any datatype of the integer family, compare as
    integers, by value and, if they differ, in sorting. So the terms of 64-bit integers are ordered and
    told apart like these. -/
theorem integers_compare_exactly :
    (∀ (m n : Int) (a b : Literal), a.WritesInteger m → b.WritesInteger n → InRange m → InRange n →
      a.numeric = some (.integer m) ∧ b.numeric = some (.integer n) ∧
        (literal a).compareValues (literal b) = some (Ord.compare m n) ∧
        (m ≠ n → (literal a).compare (literal b) = Ord.compare m n)) ∧
    ∀ m n : Int64,
      (integer m.toInt).compare (integer n.toInt) = Ord.compare m.toInt n.toInt ∧
        (integer m.toInt = integer n.toInt → m = n) := by
  constructor
  · intro m n a b first second range range'
    exact ⟨first.numeric range, second.numeric range',
      compareValues_of_writes first second range range',
      compare_of_writes first second range range'⟩
  · intro m n
    have ordered := compare_integer (Int64.inRange m) (Int64.inRange n)
    refine ⟨ordered, ?_⟩
    intro same
    have alike : (integer n.toInt).compare (integer n.toInt) = .eq := Std.ReflCmp.compare_self
    rw [same, alike] at ordered
    exact Int64.toInt_inj.mp (Int.compare_eq_eq.mp ordered.symm)

/-- The least and the greatest integer of 128 bits, the one with blanks around it and the other with a
    sign and zeros that may be left out, and the 64-bit integers at the ends. -/
theorem integers_compare_of_extremes :
    let least : Literal := .typed "\t-170141183460469231731687303715884105728\u00a0" (xsd "byte")
    let greatest : Literal :=
      .typed "+00170141183460469231731687303715884105727" (xsd "nonPositiveInteger")
    least.numeric = some (.integer (-2 ^ 127)) ∧
      (literal least).compareValues (literal greatest) = some .lt ∧
      (literal least).compare (literal greatest) = .lt ∧
      (integer Int64.minValue.toInt).compare (integer Int64.maxValue.toInt) = .lt := by
  intro least greatest
  have low : least.WritesInteger (-2 ^ 127) :=
    ⟨⟨xsd "byte", by decide, rfl⟩, ['\t'], ['-'], 0, ['\u00a0'], by decide, by decide,
      .minus (by decide), by decide +kernel⟩
  have high : greatest.WritesInteger (2 ^ 127 - 1) :=
    ⟨⟨xsd "nonPositiveInteger", by decide, rfl⟩, [], ['+'], 2, [], by decide, by decide,
      .plus (by decide), by decide +kernel⟩
  obtain ⟨all, narrow⟩ := integers_compare_exactly
  obtain ⟨reads, -, byValue, sorted⟩ :=
    all _ _ least greatest low high (by decide) (by decide)
  exact ⟨reads, byValue, sorted (by decide), (narrow Int64.minValue Int64.maxValue).1⟩

end Term

end TripleJoin
