import Mathlib.Data.Rat.Floor
import Mathlib.Tactic.Linarith
import Mathlib.Tactic.Positivity
import Mathlib.Tactic.Ring
import Bitfont.Binary32

namespace Bitfont

def Between (bound : Nat) (value : Rat) : Prop := -(bound : Rat) ≤ value ∧ value ≤ bound

namespace Binary32

theorem divide_even_le (num den : Nat) : divideEven num den ≤ num / den + 1 := by
  unfold divideEven
  dsimp only
  have even : num / den % 2 < 2 := Nat.mod_lt _ (by decide)
  split
  · omega
  · split <;> omega

theorem two_pow_exponent_le (quotient : Nat) : 2 ^ (quotient.log2 - 23) ≤ quotient + 1 := by
  by_cases zero : quotient = 0
  · subst zero
    decide
  · have power : 2 ^ quotient.log2 ≤ quotient := Nat.log2_self_le zero
    have smaller : 2 ^ (quotient.log2 - 23) ≤ 2 ^ quotient.log2 :=
      Nat.pow_le_pow_right (by decide) (Nat.sub_le _ _)
    omega

theorem divide_even_shifted_le (num den exponent : Nat) :
    divideEven num (den <<< exponent) * 2 ^ exponent ≤ num / den + 2 ^ exponent := by
  have quotient : num / (den <<< exponent) * 2 ^ exponent ≤ num / den := by
    rw [Nat.shiftLeft_eq, ← Nat.div_div_eq_div_mul]
    exact Nat.div_mul_le_self _ _
  have rounded := Nat.mul_le_mul_right (2 ^ exponent) (divide_even_le num (den <<< exponent))
  rw [Nat.succ_mul] at rounded
  omega

theorem bounded_eq_finite {exponent : Nat} (low : exponent ≤ 250) (negative : Bool) (significand : Nat) :
    bounded negative significand exponent = finite negative significand exponent := by
  apply if_neg
  rw [maxExponent]
  omega

theorem of_units_eq_finite (negative : Bool) {num den : Nat} (small : (num / den).log2 < 250) :
    ∃ significand exponent, ofUnits negative num den = finite negative significand exponent ∧
      significand * 2 ^ exponent ≤ 2 * (num / den) + 1 := by
  have rounded := divide_even_shifted_le num den ((num / den).log2 - 23)
  have power := two_pow_exponent_le (num / den)
  have size : divideEven num (den <<< ((num / den).log2 - 23)) * 2 ^ ((num / den).log2 - 23) ≤
      2 * (num / den) + 1 := by omega
  unfold ofUnits
  dsimp only
  by_cases carry : divideEven num (den <<< ((num / den).log2 - 23)) = 2 * normalSignificand
  · rw [if_pos carry, bounded_eq_finite (by omega)]
    refine ⟨_, _, rfl, ?_⟩
    rw [carry, Nat.mul_assoc, Nat.mul_left_comm] at size
    rwa [Nat.pow_succ, Nat.mul_comm (2 ^ _)]
  · rw [if_neg carry, bounded_eq_finite (by omega)]
    exact ⟨_, _, rfl, size⟩

theorem units_per_one_eq : unitsPerOne = 2 ^ 149 := Nat.one_shiftLeft 149

theorem units_per_one_pos : 0 < unitsPerOne := by
  rw [units_per_one_eq]
  exact Nat.two_pow_pos 149

theorem log2_units_lt {units bound : Nat} (inside : units ≤ bound * unitsPerOne) (small : bound ≤ 2 ^ 64) :
    units.log2 < 250 := by
  by_cases zero : units = 0
  · subst zero
    decide
  · rw [Nat.log2_lt zero]
    calc units ≤ bound * unitsPerOne := inside
      _ ≤ 2 ^ 64 * 2 ^ 149 := Nat.mul_le_mul small (Nat.le_of_eq units_per_one_eq)
      _ = 2 ^ (64 + 149) := (Nat.pow_add 2 64 149).symm
      _ < 2 ^ 250 := Nat.pow_lt_pow_right (by decide) (by decide)

theorem magnitude_bounded {count units bound : Nat} (positive : 0 < units)
    (inside : count ≤ 2 * (bound * units) + 1) :
    0 ≤ mkRat count units ∧ mkRat count units ≤ 2 * bound + 1 := by
  have unit : (0 : Rat) < units := by exact_mod_cast positive
  have whole : (1 : Rat) ≤ units := by exact_mod_cast positive
  have cast : (count : Rat) ≤ 2 * (bound * units) + 1 := by exact_mod_cast inside
  rw [Rat.mkRat_eq_div, Int.cast_natCast]
  constructor
  · positivity
  · rw [div_le_iff₀ unit]
    linarith

theorem value_finite (negative : Bool) (significand exponent : Nat) {bound : Nat}
    (inside : significand * 2 ^ exponent ≤ 2 * (bound * unitsPerOne) + 1) :
    ∃ rounded, (finite negative significand exponent).value? = some rounded ∧
      Between (2 * bound + 1) rounded := by
  rw [← Nat.shiftLeft_eq] at inside
  obtain ⟨above, below⟩ := magnitude_bounded units_per_one_pos inside
  refine ⟨_, rfl, ?_⟩
  generalize mkRat ((significand <<< exponent : Nat) : Int) unitsPerOne = magnitude at above below ⊢
  unfold Between
  push_cast
  cases negative with
  | false => exact ⟨by simp only [Bool.false_eq_true, if_false]; linarith, below⟩
  | true => exact ⟨by simp only [if_true]; linarith, by simp only [if_true]; linarith⟩

theorem num_bounded {value : Rat} {bound : Nat} (inside : Between bound value) :
    value.num.natAbs ≤ bound * value.den := by
  obtain ⟨low, high⟩ := inside
  have den : (0 : Rat) < value.den := by exact_mod_cast value.den_pos
  have exact : (value.num : Rat) = value * value.den := by
    rw [eq_comm, ← eq_div_iff (ne_of_gt den), Rat.num_div_den]
  have upper : (value.num : Rat) ≤ bound * value.den := exact ▸ mul_le_mul_of_nonneg_right high den.le
  have lower : -(bound * value.den : Rat) ≤ value.num := by
    rw [exact, ← neg_mul]
    exact mul_le_mul_of_nonneg_right low den.le
  have upperInt : value.num ≤ (bound * value.den : Nat) := by exact_mod_cast upper
  have lowerInt : -((bound * value.den : Nat) : Int) ≤ value.num := by exact_mod_cast lower
  omega

-- Rounding no more than doubles a number that is not one of the least.
theorem value_of_rat {value : Rat} {bound : Nat} (inside : Between bound value) (small : bound ≤ 2 ^ 64) :
    ∃ rounded, (ofRat value).value? = some rounded ∧ Between (2 * bound + 1) rounded := by
  have units : value.num.natAbs * unitsPerOne / value.den ≤ bound * unitsPerOne := by
    apply Nat.div_le_of_le_mul
    calc value.num.natAbs * unitsPerOne
        ≤ bound * value.den * unitsPerOne := Nat.mul_le_mul_right _ (num_bounded inside)
      _ = value.den * (bound * unitsPerOne) := by ring
  obtain ⟨significand, exponent, rounded, size⟩ :=
    of_units_eq_finite (decide (value < 0)) (log2_units_lt units small)
  have found : ofRat value = finite (decide (value < 0)) significand exponent := rounded
  rw [found]
  apply value_finite
  omega

end Binary32
end Bitfont
