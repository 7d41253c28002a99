import Mathlib.Tactic.Ring
import SolidGeometry.Proofs.Number.Nearest

/-! Results of arithmetic are rounded to doubles by shifting a mantissa together with what is known
of the lost bits. The shifted mantissa stands for the exact quotient all the way, so it is rounded
once only. -/
namespace SolidGeometry.Number
open Float.Model Float.Model.UnpackedFloat

/-- The mantissa and the two bits below it are those of `num / den`: the first is one from a half
on, the second unless there is nothing more. -/
structure Holds (em : ExtendedMantissa) (num den : Nat) : Prop where
  mantissa : em.mantissa = num / den
  round : em.roundBit = decide (den ≤ 2 * (num % den))
  sticky : em.stickyBit = decide (num % den ≠ 0 ∧ 2 * (num % den) ≠ den)

theorem holds_accuracyOfFraction (num : Nat) {den : Nat} (positive : 0 < den) :
    Holds (.ofMantissaAndAccuracy (num / den) (accuracyOfFraction (num % den) den)) num den := by
  unfold accuracyOfFraction
  split
  · rename_i none
    constructor
    · rfl
    · rw [none]
      exact (decide_eq_false (by omega)).symm
    · rw [none]
      rfl
  rename_i some
  rcases lt_trichotomy (2 * (num % den)) den with less | half | more
  · rw [compare_lt_iff_lt.mpr less]
    constructor
    · rfl
    · exact (decide_eq_false (by omega)).symm
    · exact (decide_eq_true ⟨some, by omega⟩).symm
  · rw [compare_eq_iff_eq.mpr half]
    constructor
    · rfl
    · exact (decide_eq_true (by omega)).symm
    · exact (decide_eq_false (by omega)).symm
  · rw [compare_gt_iff_gt.mpr more]
    constructor
    · rfl
    · exact (decide_eq_true (by omega)).symm
    · exact (decide_eq_true ⟨some, by omega⟩).symm

/-- Every mantissa with an accuracy is that of a quotient. -/
theorem exists_holds (m : Nat) (accuracy : Accuracy) :
    ∃ rest < 4, Holds (.ofMantissaAndAccuracy m accuracy) (4 * m + rest) 4 := by
  have place (rest : Nat) (small : rest < 4) :
      (4 * m + rest) / 4 = m ∧ (4 * m + rest) % 4 = rest := by
    omega
  cases accuracy with
  | exact =>
    obtain ⟨whole, part⟩ := place 0 (by omega)
    exact ⟨0, by omega, whole.symm, by rw [part]; rfl, by rw [part]; rfl⟩
  | inexact order =>
    cases order with
    | lt =>
      obtain ⟨whole, part⟩ := place 1 (by omega)
      exact ⟨1, by omega, whole.symm, by rw [part]; rfl, by rw [part]; rfl⟩
    | eq =>
      obtain ⟨whole, part⟩ := place 2 (by omega)
      exact ⟨2, by omega, whole.symm, by rw [part]; rfl, by rw [part]; rfl⟩
    | gt =>
      obtain ⟨whole, part⟩ := place 3 (by omega)
      exact ⟨3, by omega, whole.symm, by rw [part]; rfl, by rw [part]; rfl⟩

namespace Holds

variable {em : ExtendedMantissa} {num den : Nat} (holds : Holds em num den) (positive : 0 < den)

include holds positive

theorem shiftRightOne : Holds em.shiftRightOne num (den * 2) := by
  have small := Nat.mod_lt num positive
  have rest : num % (den * 2) = num % den + den * (num / den % 2) := Nat.mod_mul
  have whole : num / (den * 2) = num / den / 2 := (Nat.div_div_eq_div_mul num den 2).symm
  have mantissa : em.shiftRightOne.mantissa = num / den / 2 := by
    rw [ExtendedMantissa.shiftRightOne, holds.mantissa]
  have round : em.shiftRightOne.roundBit = (num / den % 2 != 0) := by
    rw [ExtendedMantissa.shiftRightOne, holds.mantissa]
  have sticky : em.shiftRightOne.stickyBit = decide (num % den ≠ 0) := by
    rw [ExtendedMantissa.shiftRightOne, holds.round, holds.sticky, ← Bool.decide_or,
      decide_eq_decide]
    omega
  constructor
  · rw [mantissa, whole]
  · rw [round, rest]
    rcases Nat.mod_two_eq_zero_or_one (num / den) with even | odd
    · rw [even]
      simp
      omega
    · rw [odd]
      simp
      omega
  · rw [sticky, rest, decide_eq_decide]
    rcases Nat.mod_two_eq_zero_or_one (num / den) with even | odd
    · rw [even]
      omega
    · rw [odd]
      omega

theorem shiftRight (n : Nat) : Holds (em >>> n) num (den * 2 ^ n) := by
  induction n with
  | zero =>
    rw [pow_zero, mul_one]
    exact holds
  | succ n ih =>
    rw [pow_succ, ← mul_assoc]
    exact ih.shiftRightOne (Nat.mul_pos positive (Nat.two_pow_pos n))

/-- Rounding the mantissa rounds the quotient. -/
theorem roundedMantissa : em.roundedMantissa = roundHalfEven num den := by
  obtain ⟨m, round, sticky⟩ := em
  obtain ⟨mantissa, half, rest⟩ := holds
  dsimp only at mantissa half rest
  subst mantissa half rest
  unfold roundHalfEven
  dsimp only
  rcases lt_trichotomy (2 * (num % den)) den with less | tie | more
  · rw [if_pos less, decide_eq_false (not_le.mpr less)]
    cases decide (num % den ≠ 0 ∧ 2 * (num % den) ≠ den) <;> rfl
  · rw [if_neg (by omega), if_neg (by omega), decide_eq_true (by omega), decide_eq_false (by omega)]
    rfl
  · rw [if_neg (by omega), if_pos more, decide_eq_true (by omega), decide_eq_true (by omega)]
    rfl

end Holds

/-- The exponent that a double of the given mantissa and exponent has. -/
def fittingExponent (m : Nat) (e : Int) : Int := max ((m.log2 : Int) + e - 52) leastExponent

theorem targetExponent_eq (m : Nat) (e : Int) :
    double.targetExponent (totalExponent m e) = fittingExponent m e := by
  simp only [Format.targetExponent, totalExponent, Format.mantissaBits, Format.minExponent,
    fittingExponent, leastExponent]
  norm_num
  omega

theorem shiftToTargetExponent_eq (m : Nat) (e : Int) (accuracy : Accuracy) :
    shiftToTargetExponent double m e accuracy =
      (ExtendedMantissa.ofMantissaAndAccuracy m accuracy >>> (fittingExponent m e - e).toNat,
        e + (fittingExponent m e - e).toNat) := by
  rw [← targetExponent_eq]
  rfl

theorem whole_le_roundHalfEven (num den : Nat) : num / den ≤ roundHalfEven num den := by
  unfold roundHalfEven
  dsimp only
  split <;> [skip; split] <;> omega

theorem roundHalfEven_le_succ (num den : Nat) : roundHalfEven num den ≤ num / den + 1 := by
  unfold roundHalfEven
  dsimp only
  split <;> [skip; split] <;> omega

/-- The final shift of a rounded mantissa takes back what rounding carried over. -/
theorem exists_shift_carry {r : Nat} {e : Int} (bounded : r ≤ 2 ^ 53) (least : leastExponent ≤ e)
    (full : 2 ^ 52 ≤ r ∨ e = leastExponent) :
    ∃ em t, shiftToTargetExponent double r e .exact = (em, t) ∧ scaled em.mantissa t = scaled r e ∧
      Canonical em.mantissa t := by
  rw [shiftToTargetExponent_eq]
  refine ⟨_, _, rfl, ?_⟩
  rcases lt_or_eq_of_le bounded with small | rfl
  · have short : r.log2 ≤ 52 := by
      by_cases zero : r = 0
      · subst zero
        decide
      · exact Nat.lt_succ_iff.mp ((Nat.log2_lt zero).mpr small)
    have stays : (fittingExponent r e - e).toNat = 0 := by
      unfold fittingExponent
      omega
    rw [stays]
    refine ⟨?_, ?_, ?_, ?_⟩
    · change scaled r (e + (0 : Nat)) = scaled r e
      simp
    · exact small
    · simpa using least
    · change 2 ^ 52 ≤ r ∨ e + (0 : Nat) = leastExponent
      simpa using full
  · have moves : (fittingExponent (2 ^ 53) e - e).toNat = 1 := by
      unfold fittingExponent
      rw [Nat.log2_two_pow]
      omega
    rw [moves]
    refine ⟨?_, ?_, ?_, ?_⟩
    · change scaled (2 ^ 53 / 2) (e + (1 : Nat)) = scaled (2 ^ 53) e
      simp only [scaled]
      rw [zpow_add₀ two_ne_zero]
      norm_num
      ring
    · change 2 ^ 53 / 2 < 2 ^ 53
      decide
    · push_cast
      omega
    · left
      change 2 ^ 52 ≤ 2 ^ 53 / 2
      decide

section

variable {m : Nat} {e : Int}

/-- The mantissa shifted to the fitting exponent is that of a double. -/
theorem shifted_bounds (fits : e ≤ fittingExponent m e) :
    m / 2 ^ (fittingExponent m e - e).toNat < 2 ^ 53 ∧
      (2 ^ 52 ≤ m / 2 ^ (fittingExponent m e - e).toNat ∨
        fittingExponent m e = leastExponent) := by
  constructor
  · rw [Nat.div_lt_iff_lt_mul (Nat.two_pow_pos _), ← pow_add]
    refine lt_of_lt_of_le Nat.lt_log2_self (Nat.pow_le_pow_right two_pos ?_)
    unfold fittingExponent
    omega
  · by_cases least : fittingExponent m e = leastExponent
    · exact .inr least
    left
    have shift : 52 + (fittingExponent m e - e).toNat = m.log2 := by
      unfold fittingExponent at least fits ⊢
      omega
    have nonzero : m ≠ 0 := by
      rintro rfl
      simp at shift
    rw [Nat.le_div_iff_mul_le (Nat.two_pow_pos _), ← pow_add, shift]
    exact Nat.log2_self_le nonzero

variable {accuracy : Accuracy} {num den r : Nat}

/-- The rounded mantissa is that of a double, but for the power of two that it may be rounded up to.
-/
theorem rounded_bounds (holds : Holds (.ofMantissaAndAccuracy m accuracy) num den)
    (fits : e ≤ fittingExponent m e)
    (rounded : r = roundHalfEven num (den * 2 ^ (fittingExponent m e - e).toNat)) :
    r ≤ 2 ^ 53 ∧ (2 ^ 52 ≤ r ∨ fittingExponent m e = leastExponent) := by
  obtain ⟨bounded, full⟩ := shifted_bounds fits
  have whole : num / (den * 2 ^ (fittingExponent m e - e).toNat) =
      m / 2 ^ (fittingExponent m e - e).toNat := by
    rw [← Nat.div_div_eq_div_mul, ← holds.mantissa]
    congr 1
    cases accuracy with
    | exact => rfl
    | inexact order => cases order <;> rfl
  have lower := whole_le_roundHalfEven num (den * 2 ^ (fittingExponent m e - e).toNat)
  have upper := roundHalfEven_le_succ num (den * 2 ^ (fittingExponent m e - e).toNat)
  rw [whole, ← rounded] at lower upper
  exact ⟨by omega, full.imp_left fun enough => enough.trans lower⟩

/-- A quotient is rounded to a whole number of units of its fitting exponent. -/
theorem roundWithAccuracy_spec (s : Sign) (positive : 0 < den)
    (holds : Holds (.ofMantissaAndAccuracy m accuracy) num den) (fits : e ≤ fittingExponent m e)
    (rounded : r = roundHalfEven num (den * 2 ^ (fittingExponent m e - e).toNat)) :
    (r = 0 → roundWithAccuracy double s m e accuracy = .zero s) ∧
      (r ≠ 0 → ∃ mantissa exponent nonzero,
        roundWithAccuracy double s m e accuracy = .finite s mantissa exponent nonzero ∧
          Canonical mantissa exponent ∧
            scaled mantissa exponent = scaled r (fittingExponent m e)) := by
  obtain ⟨bounded, full⟩ := rounded_bounds holds fits rounded
  have first := (holds.shiftRight positive (fittingExponent m e - e).toNat).roundedMantissa
    (Nat.mul_pos positive (Nat.two_pow_pos _))
  have place : e + (fittingExponent m e - e).toNat = fittingExponent m e := by omega
  have least : leastExponent ≤ fittingExponent m e := le_max_right _ _
  obtain ⟨em, t, carried, same, canonical⟩ := exists_shift_carry bounded least full
  have result : roundWithAccuracy double s m e accuracy =
      if nonzero : em.mantissa = 0 then .zero s
      else .finite s em.mantissa t (Nat.pos_of_ne_zero nonzero) := by
    unfold roundWithAccuracy
    rw [shiftToTargetExponent_eq]
    dsimp only
    rw [first, ← rounded, place, carried]
  have zero : em.mantissa = 0 ↔ r = 0 := by
    rw [← @scaled_eq_zero_iff _ t, same, scaled_eq_zero_iff]
  rw [result]
  constructor
  · intro none
    rw [dif_pos (zero.mpr none)]
  · intro some
    rw [dif_neg (mt zero.mp some)]
    exact ⟨_, _, _, rfl, canonical, same⟩

end

end SolidGeometry.Number
