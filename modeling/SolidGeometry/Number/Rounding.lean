namespace SolidGeometry.Number

/-- The whole number nearest to `num / den`, the even one of two. -/
def roundHalfEven (num den : Nat) : Nat :=
  let whole := num / den
  let rest := num % den
  if 2 * rest < den then whole
  else if den < 2 * rest then whole + 1
  else whole + whole % 2

theorem roundHalfEven_le (num den : Nat) (positive : 0 < den) :
    2 * (den * roundHalfEven num den) ≤ 2 * num + den := by
  have split := Nat.div_add_mod num den
  have small := Nat.mod_lt num positive
  unfold roundHalfEven
  dsimp only
  split
  · omega
  · split
    · rw [Nat.mul_add]; omega
    · have tie : 2 * (num % den) = den := by omega
      rcases Nat.mod_two_eq_zero_or_one (num / den) with even | odd
      · rw [even, Nat.add_zero]; omega
      · rw [odd, Nat.mul_add]; omega

theorem le_roundHalfEven (num den : Nat) (positive : 0 < den) :
    2 * num ≤ 2 * (den * roundHalfEven num den) + den := by
  have split := Nat.div_add_mod num den
  have small := Nat.mod_lt num positive
  unfold roundHalfEven
  dsimp only
  split
  · omega
  · split
    · rw [Nat.mul_add]; omega
    · have tie : 2 * (num % den) = den := by omega
      rcases Nat.mod_two_eq_zero_or_one (num / den) with even | odd
      · rw [even, Nat.add_zero]; omega
      · rw [odd, Nat.mul_add]; omega

end SolidGeometry.Number
