import Mathlib.Algebra.Group.Nat.Defs
import TripleJoin.Number.Binary64
/-!
Rounding integers to doubles never turns their order around. Different integers may become one
double, but the double of the greater one is not before that of the other.
-/
namespace TripleJoin

namespace Binary64

theorem rank_inj {x y : Binary64} (same : x.rank = y.rank) : x = y := by
  obtain ⟨negative, code, bound⟩ := x
  obtain ⟨negative', code', bound'⟩ := y
  simp only [rank] at same
  cases negative <;> cases negative' <;> simp at same ⊢ <;> omega

theorem nearest_bounds (num den : Nat) :
    num / den ≤ nearest num den ∧ nearest num den ≤ num / den + 1 := by
  unfold nearest
  dsimp only
  split
  · omega
  · split <;> omega

theorem nearest_mono {m n : Nat} (le : m ≤ n) (den : Nat) : nearest m den ≤ nearest n den := by
  have quotients : m / den ≤ n / den := Nat.div_le_div_right le
  rcases Nat.lt_or_eq_of_le quotients with less | same
  · have upper := (nearest_bounds m den).2
    have lower := (nearest_bounds n den).1
    omega
  · -- with one quotient the greater number has the greater remainder
    have rests : m % den ≤ n % den := by
      have left := Nat.div_add_mod m den
      have right := Nat.div_add_mod n den
      rw [same] at left
      omega
    by_cases low : 2 * (m % den) < den
    · have down : nearest m den = n / den := by rw [nearest, if_pos low, same]
      exact down ▸ (nearest_bounds n den).1
    · have low' : ¬2 * (n % den) < den := by omega
      simp only [nearest, if_neg low, if_neg low', same]
      split <;> split <;> omega

theorem nearest_mul (whole : Nat) {den : Nat} (positive : 0 < den) :
    nearest (whole * den) den = whole := by
  unfold nearest
  dsimp only
  rw [Nat.mul_mod_left, Nat.mul_div_cancel _ positive, if_pos (by omega)]

theorem exponent_one {n : Nat} (positive : 0 < n) : exponent n 1 = n.log2 := by
  have top : 2 ^ n.log2 ≤ n := Nat.log2_self_le (by omega)
  have one : Nat.log2 1 = 0 := rfl
  have met : 1 <<< ((n.log2 : Int) - (0 : Nat)).toNat ≤
      n <<< (-((n.log2 : Int) - (0 : Nat))).toNat := by
    simpa [Nat.one_shiftLeft] using top
  rw [exponent, one, if_pos met]
  omega

/-- The significand of an integer: it is scaled up to 53 binary digits, or rounded to as many. -/
def significand (n : Nat) : Nat :=
  nearest (n * 2 ^ (52 - n.log2)) (2 ^ (n.log2 - 52))

theorem codeOfRatio_one {n : Nat} (positive : 0 < n) :
    codeOfRatio n 1 = min infinityCode ((n.log2 + 1022) * 2 ^ 52 + significand n) := by
  have quantum : max (exponent n 1 - 52) (-1074) = (n.log2 : Int) - 52 := by
    rw [exponent_one positive]
    omega
  have place : ((n.log2 : Int) - 52 + 1074).toNat = n.log2 + 1022 := by omega
  have left : (-((n.log2 : Int) - 52)).toNat = 52 - n.log2 := by omega
  have right : ((n.log2 : Int) - 52).toNat = n.log2 - 52 := by omega
  rw [codeOfRatio, if_neg (by omega), quantum]
  dsimp only
  rw [place, left, right, Nat.shiftLeft_eq, Nat.shiftLeft_eq, Nat.shiftLeft_eq, Nat.one_mul,
    significand]

theorem significand_bounds {n : Nat} (positive : 0 < n) :
    2 ^ 52 ≤ significand n ∧ significand n ≤ 2 ^ 53 := by
  have scale : 2 ^ 52 * 2 ^ (n.log2 - 52) = 2 ^ n.log2 * 2 ^ (52 - n.log2) := by
    rw [← Nat.pow_add, ← Nat.pow_add]
    congr 1
    omega
  have unit : 0 < 2 ^ (n.log2 - 52) := Nat.two_pow_pos _
  constructor
  · have low : 2 ^ n.log2 ≤ n := Nat.log2_self_le (by omega)
    rw [← nearest_mul (2 ^ 52) unit, scale]
    exact nearest_mono (Nat.mul_le_mul_right _ low) _
  · have high : n ≤ 2 ^ (n.log2 + 1) := Nat.le_of_lt Nat.lt_log2_self
    have scale' : 2 ^ 53 * 2 ^ (n.log2 - 52) = 2 ^ (n.log2 + 1) * 2 ^ (52 - n.log2) := by
      rw [Nat.pow_succ 2 52, Nat.mul_right_comm, scale, Nat.pow_succ, Nat.mul_right_comm]
    rw [← nearest_mul (2 ^ 53) unit, scale']
    exact nearest_mono (Nat.mul_le_mul_right _ high) _

theorem codeOfRatio_mono {m n : Nat} (le : m ≤ n) : codeOfRatio m 1 ≤ codeOfRatio n 1 := by
  rcases Nat.eq_zero_or_pos m with zero | positive
  · subst zero
    exact Nat.zero_le _
  · have positive' : 0 < n := Nat.lt_of_lt_of_le positive le
    have logs : m.log2 ≤ n.log2 :=
      (Nat.le_log2 (by omega)).mpr (Nat.le_trans (Nat.log2_self_le (by omega)) le)
    suffices places : (m.log2 + 1022) * 2 ^ 52 + significand m ≤
        (n.log2 + 1022) * 2 ^ 52 + significand n by
      rw [codeOfRatio_one positive, codeOfRatio_one positive']
      omega
    rcases Nat.lt_or_eq_of_le logs with less | same
    · -- rounding up carries into the next exponent and not beyond it
      have high := (significand_bounds positive).2
      have low := (significand_bounds positive').1
      omega
    · have rounded : significand m ≤ significand n := by
        rw [significand, significand, same]
        exact nearest_mono (Nat.mul_le_mul_right _ le) _
      omega

/-- A greater integer has no lesser double. -/
theorem rank_ofInt_mono {m n : Int} (le : m ≤ n) : (ofInt m).rank ≤ (ofInt n).rank := by
  simp only [rank, ofInt, ofRatio, decide_eq_true_eq]
  by_cases first : m < 0
  · by_cases second : n < 0
    · have codes := codeOfRatio_mono (m := n.natAbs) (n := m.natAbs) (by omega)
      rw [if_pos first, if_pos second]
      omega
    · rw [if_pos first, if_neg second]
      omega
  · have codes := codeOfRatio_mono (m := m.natAbs) (n := n.natAbs) (by omega)
    rw [if_neg first, if_neg (by omega)]
    omega

end Binary64

end TripleJoin
