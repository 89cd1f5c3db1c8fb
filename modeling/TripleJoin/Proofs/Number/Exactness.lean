import Mathlib.Algebra.Field.Rat
import Mathlib.Data.Int.Cast.Lemmas
import Mathlib.Data.Nat.Cast.Order.Ring
import Mathlib.Order.Monotone.Basic
import Mathlib.Tactic.NormNum
import TripleJoin.Proofs.Number.Rounding
import TripleJoin.Term.Numeric
/-!
The numbers that doubles stand for. No number but zero has two doubles, and an integer that has one is
rounded to it. Both follow from reading a double in units of the least positive one, where it is an
integer that grows with the code.
-/
namespace TripleJoin

/-- A number or one of the two infinities. -/
inductive Extended where
  | finite (number : ℚ)
  | infinite (negative : Bool)
  deriving DecidableEq

namespace Binary64

/-- The significand of a code. The codes of the least exponent have no leading digit of their own. -/
def coefficient (code : Nat) : Nat :=
  if code / 2 ^ 52 = 0 then code % 2 ^ 52 else 2 ^ 52 + code % 2 ^ 52

/-- The exponent of a code; the two least ones are alike. -/
def place (code : Nat) : Nat := max 1 (code / 2 ^ 52)

/-- The number that a code below infinity stands for. -/
def magnitude (code : Nat) : ℚ := coefficient code * 2 ^ (place code - 1075 : ℤ)

def value (x : Binary64) : Extended :=
  if x.code = infinityCode then .infinite x.negative
  else .finite (if x.negative then -magnitude x.code else magnitude x.code)

theorem value_zero (negative : Bool) : (zero negative).value = .finite 0 := by
  have least : magnitude 0 = 0 := by
    rw [magnitude, show coefficient 0 = 0 from rfl, Nat.cast_zero, zero_mul]
  cases negative <;> simp [value, zero, infinityCode, least]

/-- The number of a code as a multiple of the least positive double. -/
def units (code : Nat) : Nat := coefficient code * 2 ^ (place code - 1)

theorem units_zero : units 0 = 0 := by
  have least : coefficient 0 = 0 := rfl
  rw [units, least, Nat.zero_mul]

theorem magnitude_eq (code : Nat) : magnitude code = units code / 2 ^ 1074 := by
  have positive : 1 ≤ place code := Nat.le_max_left _ _
  have shift : (place code - 1075 : ℤ) = (place code - 1 : Nat) - (1074 : Nat) := by omega
  rw [magnitude, shift, zpow_sub₀ two_ne_zero, zpow_natCast, zpow_natCast, ← mul_div_assoc, units,
    Nat.cast_mul, Nat.cast_pow, Nat.cast_two]

/-- The next code has the next significand, or the least one of the next exponent. -/
theorem code_succ_cases (code : Nat) :
    place (code + 1) = place code ∧ coefficient (code + 1) = coefficient code + 1 ∨
      place (code + 1) = place code + 1 ∧ coefficient (code + 1) = 2 ^ 52 ∧
        coefficient code = 2 ^ 53 - 1 := by
  unfold place coefficient
  split <;> split <;> omega

theorem units_lt_units_succ (code : Nat) : units code < units (code + 1) := by
  have unit := Nat.two_pow_pos (place code - 1)
  unfold units
  rcases code_succ_cases code with ⟨same, next⟩ | ⟨carry, least, greatest⟩
  · rw [same, next]
    exact Nat.mul_lt_mul_of_pos_right (Nat.lt_succ_self _) unit
  · have positive : 1 ≤ place code := Nat.le_max_left _ _
    have double : 2 ^ (place code + 1 - 1) = 2 * 2 ^ (place code - 1) := by
      rw [← Nat.pow_succ']
      congr 1
      omega
    rw [carry, least, greatest, double]
    omega

theorem units_strictMono : StrictMono units :=
  strictMono_nat_of_lt_succ units_lt_units_succ

theorem coefficient_lt (code : Nat) : coefficient code < 2 ^ 53 := by
  unfold coefficient
  split <;> omega

theorem le_coefficient {code : Nat} (normal : 2 ≤ place code) : 2 ^ 52 ≤ coefficient code := by
  unfold place at normal
  unfold coefficient
  split <;> omega

/-- The exponent of an integer is the place of its highest binary digit. -/
theorem place_of_units {n code k : Nat} (positive : 0 < n) (deep : 53 ≤ k)
    (exact : units code = n * 2 ^ k) : place code + 51 = n.log2 + k := by
  have low : 2 ^ n.log2 ≤ n := Nat.log2_self_le (by omega)
  have high : n < 2 ^ (n.log2 + 1) := Nat.lt_log2_self
  have one : 1 ≤ place code := Nat.le_max_left _ _
  have above : n.log2 + k < 53 + (place code - 1) := by
    rw [← Nat.pow_lt_pow_iff_right Nat.one_lt_two]
    calc 2 ^ (n.log2 + k) = 2 ^ n.log2 * 2 ^ k := Nat.pow_add ..
      _ ≤ n * 2 ^ k := Nat.mul_le_mul_right _ low
      _ = coefficient code * 2 ^ (place code - 1) := exact.symm
      _ < 2 ^ 53 * 2 ^ (place code - 1) :=
        Nat.mul_lt_mul_of_pos_right (coefficient_lt code) (Nat.two_pow_pos _)
      _ = 2 ^ (53 + (place code - 1)) := (Nat.pow_add ..).symm
  have below : 52 + (place code - 1) < n.log2 + 1 + k := by
    rw [← Nat.pow_lt_pow_iff_right Nat.one_lt_two]
    calc 2 ^ (52 + (place code - 1)) = 2 ^ 52 * 2 ^ (place code - 1) := Nat.pow_add ..
      _ ≤ coefficient code * 2 ^ (place code - 1) :=
        Nat.mul_le_mul_right _ (le_coefficient (by omega))
      _ = n * 2 ^ k := exact
      _ < 2 ^ (n.log2 + 1) * 2 ^ k := Nat.mul_lt_mul_of_pos_right high (Nat.two_pow_pos _)
      _ = 2 ^ (n.log2 + 1 + k) := (Nat.pow_add ..).symm
  omega

theorem code_eq {code : Nat} (normal : 2 ≤ place code) :
    code = (place code - 1) * 2 ^ 52 + coefficient code := by
  unfold place at normal ⊢
  unfold coefficient
  split <;> omega

/-- An integer that is the number of a code is rounded to that code. The depth is a variable because
    Lean computes the power wherever it meets it as a numeral. -/
theorem codeOfRatio_of_units {n code k : Nat} (depth : k = 1074) (finite : code < infinityCode)
    (exact : units code = n * 2 ^ k) : codeOfRatio n 1 = code := by
  rcases Nat.eq_zero_or_pos n with rfl | positive
  · rw [Nat.zero_mul, ← units_zero] at exact
    exact (units_strictMono.injective exact).symm
  · have exponent := place_of_units positive (by omega) exact
    have scaled : n * 2 ^ (52 - n.log2) = coefficient code * 2 ^ (n.log2 - 52) := by
      have shifts : place code - 1 + (52 - n.log2) = n.log2 - 52 + k := by omega
      apply Nat.eq_of_mul_eq_mul_right (Nat.two_pow_pos k)
      calc n * 2 ^ (52 - n.log2) * 2 ^ k = n * 2 ^ k * 2 ^ (52 - n.log2) := Nat.mul_right_comm ..
        _ = coefficient code * 2 ^ (place code - 1) * 2 ^ (52 - n.log2) := by rw [← exact, units]
        _ = coefficient code * 2 ^ (n.log2 - 52) * 2 ^ k := by
          rw [Nat.mul_assoc, Nat.mul_assoc, ← Nat.pow_add, ← Nat.pow_add, shifts]
    have rounded : significand n = coefficient code := by
      rw [significand, scaled, nearest_mul _ (Nat.two_pow_pos _)]
    have whole : code = (place code - 1) * 2 ^ 52 + coefficient code := code_eq (by omega)
    have leading : place code - 1 = n.log2 + 1022 := by omega
    rw [leading] at whole
    rw [codeOfRatio_one positive, rounded, ← whole]
    exact Nat.min_eq_right (Nat.le_of_lt finite)

/-- The number of a double as a multiple of the least positive double. -/
def signedUnits (x : Binary64) : Int :=
  if x.negative then -(units x.code : Int) else units x.code

theorem value_cases (x : Binary64) :
    (∃ negative, x = infinity negative ∧ x.value = .infinite negative) ∨
      (x.code < infinityCode ∧ x.value = .finite (x.signedUnits / 2 ^ 1074)) := by
  unfold value
  split
  · rename_i top
    left
    cases x
    exact ⟨_, by simpa [infinity] using top, rfl⟩
  · right
    refine ⟨Nat.lt_of_le_of_ne x.code_le ‹_›, congrArg Extended.finite ?_⟩
    unfold signedUnits
    split
    · rw [magnitude_eq, ← neg_div, Int.cast_neg, Int.cast_natCast]
    · rw [magnitude_eq, Int.cast_natCast]

theorem eq_zero_of_units {x : Binary64} (none : units x.code = 0) : x = zero x.negative := by
  have code := units_strictMono.injective (none.trans units_zero.symm)
  cases x
  simpa [zero] using code

theorem eq_of_signedUnits {x y : Binary64} (same : x.signedUnits = y.signedUnits)
    (zeros : x = zero true ↔ y = zero true) : x = y := by
  have signs : x.negative = y.negative := by
    by_contra differ
    have none : units x.code = 0 ∧ units y.code = 0 := by
      unfold signedUnits at same
      split at same <;> split at same <;> simp_all
    rw [eq_zero_of_units none.1, eq_zero_of_units none.2] at zeros
    cases first : x.negative <;> cases second : y.negative <;> simp_all [zero]
  have code : units x.code = units y.code := by
    simp only [signedUnits, signs] at same
    split at same <;> omega
  have code := units_strictMono.injective code
  cases x
  cases y
  simp only [mk.injEq]
  exact ⟨signs, code⟩

/-- The numbers of doubles tell them apart, the two zeros aside. -/
theorem eq_of_value {x y : Binary64} (same : x.value = y.value)
    (zeros : x = zero true ↔ y = zero true) : x = y := by
  rcases value_cases x with ⟨negative, top, number⟩ | ⟨_, number⟩
  · rcases value_cases y with ⟨negative', top', number'⟩ | ⟨_, number'⟩
    · rw [number, number'] at same
      cases same
      exact top.trans top'.symm
    · rw [number, number'] at same
      cases same
  · rcases value_cases y with ⟨negative', top', number'⟩ | ⟨_, number'⟩
    · rw [number, number'] at same
      cases same
    · rw [number, number', Extended.finite.injEq, div_left_inj' (pow_ne_zero _ two_ne_zero)] at same
      exact eq_of_signedUnits (Int.cast_injective same) zeros

theorem natAbs_signedUnits (x : Binary64) : x.signedUnits.natAbs = units x.code := by
  unfold signedUnits
  split <;> omega

theorem negative_of_signedUnits {n scale : Int} {x : Binary64} (positive : 0 < scale)
    (scaled : x.signedUnits = n * scale) (unsigned : x ≠ zero true) :
    decide (n < 0) = x.negative := by
  cases sign : x.negative with
  | false =>
    have units : x.signedUnits = units x.code := by rw [signedUnits, sign, if_neg Bool.false_ne_true]
    by_contra below
    have product := Int.mul_neg_of_neg_of_pos (by simpa using below) positive
    omega
  | true =>
    have units : x.signedUnits = -units x.code := by rw [signedUnits, sign, if_pos rfl]
    have some : Binary64.units x.code ≠ 0 := by
      intro none
      exact unsigned (sign ▸ eq_zero_of_units none)
    by_contra above
    have product := Int.mul_nonneg (by simpa using above) (Int.le_of_lt positive)
    omega

/-- An integer is rounded to the double that it is, if it is one. -/
theorem ofInt_of_value {n : Int} {x : Binary64} (same : x.value = .finite n)
    (unsigned : x ≠ zero true) : ofInt n = x := by
  rcases value_cases x with ⟨_, _, number⟩ | ⟨finite, number⟩
  · rw [number] at same
    cases same
  · obtain ⟨k, depth⟩ : ∃ k, k = 1074 := ⟨_, rfl⟩
    have scaled : x.signedUnits = n * 2 ^ k := by
      rw [number, Extended.finite.injEq, ← depth,
        div_eq_iff (pow_ne_zero _ two_ne_zero)] at same
      exact_mod_cast same
    have exact : units x.code = n.natAbs * 2 ^ k := by
      rw [← natAbs_signedUnits, scaled, Int.natAbs_mul, Int.natAbs_pow]
      rfl
    have sign := negative_of_signedUnits (Int.pow_pos (by decide)) scaled unsigned
    have code := codeOfRatio_of_units depth finite exact
    cases x
    simp only [ofInt, ofRatio, mk.injEq]
    exact ⟨sign, code⟩

end Binary64

end TripleJoin
