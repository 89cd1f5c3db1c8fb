import TripleJoin.Proofs.Constraint.Verdicts
import TripleJoin.Proofs.Number.Exactness
/-!
Comparing one number with itself, as two literals write it. The two are equal by value, whatever their
datatypes and spellings, unless exactly one of them is a double that is negative zero: that one is
less than every other zero.
-/
namespace TripleJoin

namespace Numeric

def value : Numeric → Extended
  | .integer n => .finite n
  | .real x => x.value

def negativeZero : Numeric := .real (.zero true)

variable {x y : Numeric}

theorem toBinary64_of_value (same : x.value = y.value)
    (zeros : x = negativeZero ↔ y = negativeZero) : x.toBinary64 = y.toBinary64 := by
  cases x with
  | integer m =>
    cases y with
    | integer n =>
      have integers : m = n := Rat.intCast_injective (Extended.finite.inj same)
      exact congrArg Binary64.ofInt integers
    | real y =>
      refine Binary64.ofInt_of_value same.symm ?_
      rintro rfl
      cases zeros.mpr rfl
  | real x =>
    cases y with
    | integer n =>
      refine (Binary64.ofInt_of_value same ?_).symm
      rintro rfl
      cases zeros.mp rfl
    | real y =>
      have zeros' : x = .zero true ↔ y = .zero true := by
        simpa only [negativeZero, real.injEq] using zeros
      exact Binary64.eq_of_value same zeros'

theorem tie_of_value (same : x.value = y.value) : x.tie y = .eq := by
  cases x with
  | real x => cases y <;> rfl
  | integer m =>
    cases y with
    | real y => rfl
    | integer n => exact Int.compare_eq_eq.mpr (Rat.intCast_injective (Extended.finite.inj same))

theorem compare_of_value (same : x.value = y.value)
    (zeros : x = negativeZero ↔ y = negativeZero) : x.compare y = .eq := by
  rw [compare_eq, toBinary64_of_value same zeros, Std.ReflOrd.compare_self]
  exact tie_of_value same

theorem compare_negativeZero (same : negativeZero.value = y.value) (other : y ≠ negativeZero) :
    negativeZero.compare y = .lt := by
  have double : y.toBinary64 = .zero false := by
    refine toBinary64_of_value (y := .real (.zero false)) ?_ ?_
    · rw [← same]
      exact (Binary64.value_zero true).trans (Binary64.value_zero false).symm
    · exact iff_of_false other (by decide)
  rw [compare_eq, double]
  rfl

end Numeric

theorem Term.compareValues_eq_iff {a b : Literal} {x y : Numeric} (first : a.numeric = some x)
    (second : b.numeric = some y) (same : x.value = y.value) :
    (literal a).compareValues (literal b) = some .eq ↔
      (x = .negativeZero ↔ y = .negativeZero) := by
  rw [compareValues_of_numeric first second, Option.some.injEq]
  constructor
  · intro equal
    by_cases signed : x = .negativeZero
    · subst signed
      refine iff_of_true rfl ?_
      by_contra other
      rw [Numeric.compare_negativeZero same other] at equal
      cases equal
    · refine iff_of_false signed ?_
      rintro rfl
      rw [Numeric.compare_swap, Numeric.compare_negativeZero same.symm signed] at equal
      cases equal
  · exact Numeric.compare_of_value same

namespace Constraint

/-- Two literals of one number are equal by value exactly if both or none of them are negative zero,
    and exactly then the comparisons say so: equality and the two weak ones hold, and the strict ones
    do not. Otherwise the negative zero is the lesser of the two. -/
theorem one_number_equal_iff {a b : Literal} {x y : Numeric} (first : a.numeric = some x)
    (second : b.numeric = some y) (same : x.value = y.value) :
    ((Term.literal a).compareValues (.literal b) = some .eq ↔
      (x = .negativeZero ↔ y = .negativeZero)) ∧
    (x = .negativeZero → y ≠ .negativeZero →
      (Term.literal a).compareValues (.literal b) = some .lt) ∧
    ∀ left right row, left.resolve row = some (.literal a) → right.resolve row = some (.literal b) →
      ((Verdicts.mk false true true true false).Reached left right row ↔
        (x = .negativeZero ↔ y = .negativeZero)) := by
  have ordered := Term.compareValues_of_numeric first second
  have equal := Term.compareValues_eq_iff first second same
  refine ⟨equal, ?_, ?_⟩
  · rintro rfl other
    rw [ordered, Numeric.compare_negativeZero same other]
  · intro left right row here there
    have reached := Verdicts.reached_ofTerms here there
    rw [Verdicts.ofTerms_of_compareValues ordered] at reached
    rw [← equal, ordered, Option.some.injEq]
    constructor
    · intro accepted
      have verdicts := accepted.unique reached
      cases order : x.compare y with
      | eq => rfl
      | _ =>
        rw [order] at verdicts
        cases verdicts
    · intro order
      rw [order] at reached
      exact reached

/-- Five as an integer and as a double, and zero as an integer and as a decimal with a minus sign. -/
theorem one_number_equal_of_five :
    let five := Literal.typed " +05 " (xsd "integer")
    let fifty := Literal.typed "50e-1" (xsd "double")
    let zero := Literal.typed "-0" (xsd "long")
    let signed := Literal.typed "-0.0" (xsd "decimal")
    (Term.literal five).compareValues (.literal fifty) = some .eq ∧
      (Verdicts.mk false true true true false).Reached (.fixed (.literal five))
        (.fixed (.literal fifty)) .empty ∧
      (Term.literal signed).compareValues (.literal zero) = some .lt := by
  intro five fifty zero signed
  let double : Binary64 := ⟨false, 0x4014000000000000, by decide⟩
  have value : double.value = .finite 5 := by
    have magnitude : Binary64.magnitude 0x4014000000000000 = 5 := by
      norm_num [Binary64.magnitude, Binary64.coefficient, Binary64.place]
    rw [← magnitude]
    rfl
  obtain ⟨equal, _, accepted⟩ := one_number_equal_iff (a := five) (b := fifty) (x := .integer 5)
    (y := .real double) (by decide) (by decide) (by exact value.symm)
  have unsigned : Numeric.integer 5 = .negativeZero ↔ Numeric.real double = .negativeZero := by
    decide
  obtain ⟨_, less, _⟩ := one_number_equal_iff (a := signed) (b := zero) (x := .negativeZero)
    (y := .integer 0) (by decide) (by decide) (Binary64.value_zero true)
  exact ⟨equal.mpr unsigned, (accepted _ _ _ rfl rfl).mpr unsigned, less rfl (by decide)⟩

theorem one_number_differs_by_sign :
    ¬∀ (a b : Literal) (x y : Numeric), a.numeric = some x → b.numeric = some y →
      x.value = y.value → (Term.literal a).compareValues (.literal b) = some .eq := by
  intro equal
  have zeros := (Binary64.value_zero false).trans (Binary64.value_zero true).symm
  have verdict := equal (.typed "0.0" (xsd "decimal")) (.typed "-0.0" (xsd "decimal"))
    (.real (.zero false)) (.real (.zero true)) (by decide) (by decide) zeros
  revert verdict
  decide

end Constraint

end TripleJoin
