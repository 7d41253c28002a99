import Mathlib.Algebra.Order.Field.Power
import Mathlib.Data.Rat.Lemmas
import Mathlib.Tactic.FieldSimp
import Mathlib.Tactic.Positivity
import SolidGeometry.Number.Scalar
import SolidGeometry.Proofs.Number.Unpacked

namespace SolidGeometry.Number
open Float.Model Float.Model.UnpackedFloat

/-- The exact value of a double that is neither infinite nor without a value. -/
def value? (x : Float) : Option Rat :=
  match Binary64.ofFloat x with
  | .finite negative mantissa exponent => some (scaledByTwo negative mantissa exponent)
  | .infinite _ => none
  | .nan => none

def scaled (mantissa : Nat) (exponent : Int) : Rat := mantissa * 2 ^ exponent

theorem scaled_nonneg (mantissa : Nat) (exponent : Int) : 0 ≤ scaled mantissa exponent := by
  unfold scaled
  positivity

theorem scaled_eq_zero_iff {mantissa : Nat} {exponent : Int} :
    scaled mantissa exponent = 0 ↔ mantissa = 0 := by
  unfold scaled
  have power : (2 : Rat) ^ exponent ≠ 0 := by positivity
  simp [power]

theorem two_pow_le_scaled {bits mantissa : Nat} (full : 2 ^ bits ≤ mantissa) (exponent : Int) :
    (2 : Rat) ^ ((bits : Int) + exponent) ≤ scaled mantissa exponent := by
  rw [zpow_add₀ two_ne_zero, zpow_natCast]
  exact mul_le_mul_of_nonneg_right (by exact_mod_cast full) (zpow_nonneg two_pos.le _)

theorem scaled_le_two_pow {bits mantissa : Nat} (bounded : mantissa ≤ 2 ^ bits) (exponent : Int) :
    scaled mantissa exponent ≤ 2 ^ ((bits : Int) + exponent) := by
  rw [zpow_add₀ two_ne_zero, zpow_natCast]
  exact mul_le_mul_of_nonneg_right (by exact_mod_cast bounded) (zpow_nonneg two_pos.le _)

theorem two_pow_div_two_pow (exponent : Int) :
    (2 : Rat) ^ exponent.toNat / 2 ^ (-exponent).toNat = 2 ^ exponent := by
  rw [← zpow_natCast, ← zpow_natCast, ← zpow_sub₀ two_ne_zero]
  congr 1
  omega

theorem scaledByTwo_eq (negative : Bool) (mantissa : Nat) (exponent : Int) :
    scaledByTwo negative mantissa exponent =
      if negative then -scaled mantissa exponent else scaled mantissa exponent := by
  have magnitude : mkRat (mantissa * Nat.pow 2 exponent.toNat) (Nat.pow 2 (-exponent).toNat) =
      scaled mantissa exponent := by
    rw [Rat.mkRat_eq_div, scaled, ← two_pow_div_two_pow exponent, ← mul_div_assoc]
    simp
  unfold scaledByTwo
  dsimp only
  rw [magnitude]

theorem abs_scaledByTwo (negative : Bool) (mantissa : Nat) (exponent : Int) :
    |scaledByTwo negative mantissa exponent| = scaled mantissa exponent := by
  rw [scaledByTwo_eq]
  cases negative with
  | false => exact abs_of_nonneg (scaled_nonneg mantissa exponent)
  | true =>
    rw [if_pos rfl, abs_neg]
    exact abs_of_nonneg (scaled_nonneg mantissa exponent)

theorem scaledByTwo_eq_zero_iff {negative : Bool} {mantissa : Nat} {exponent : Int} :
    scaledByTwo negative mantissa exponent = 0 ↔ mantissa = 0 := by
  rw [← abs_eq_zero, abs_scaledByTwo, scaled_eq_zero_iff]

theorem value?_of_finite {x : Float} {negative : Bool} {mantissa : Nat} {exponent : Int}
    (finite : Binary64.ofFloat x = .finite negative mantissa exponent) :
    value? x = some (scaledByTwo negative mantissa exponent) := by
  rw [value?, finite]

theorem finite_of_value? {x : Float} {u : Rat} (valued : value? x = some u) :
    ∃ negative mantissa exponent, Binary64.ofFloat x = .finite negative mantissa exponent ∧
      u = scaledByTwo negative mantissa exponent := by
  unfold value? at valued
  split at valued
  · rename_i negative mantissa exponent finite
    cases valued
    exact ⟨negative, mantissa, exponent, finite, rfl⟩
  · cases valued
  · cases valued

theorem place?_float {x : Float} {u : Rat} (valued : value? x = some u) :
    (Scalar.float x).place? = some (.finite u) := by
  obtain ⟨negative, mantissa, exponent, finite, rfl⟩ := finite_of_value? valued
  simp only [Scalar.place?, finite]

theorem isZero_float {x : Float} {u : Rat} (valued : value? x = some u) :
    (Scalar.float x).isZero = decide (u = 0) := by
  have zero : (0 : Scalar).place? = some (.finite 0) := rfl
  rw [Scalar.isZero, Scalar.eqv, place?_float valued, zero]
  by_cases same : u = 0
  · simp [same]
  · simp [same]

def halfLeast : Rat := 2 ^ (leastExponent - 1)

theorem halfLeast_nonneg : 0 ≤ halfLeast := zpow_nonneg two_pos.le _

theorem roundHalfEven_eq_zero_iff {num den : Nat} (positive : 0 < den) :
    roundHalfEven num den = 0 ↔ 2 * num ≤ den := by
  have bound := le_roundHalfEven num den positive
  constructor
  · intro zero
    rw [zero] at bound
    omega
  · intro tiny
    have whole : num / den = 0 := Nat.div_eq_of_lt (by omega)
    have rest : num % den = num := Nat.mod_eq_of_lt (by omega)
    simp only [roundHalfEven, whole, rest]
    split
    · rfl
    · rw [if_neg (by omega)]

theorem two_pow_binaryExponent_le {num den : Nat} (num_positive : 0 < num)
    (den_positive : 0 < den) : (2 : Rat) ^ binaryExponent num den ≤ num / den := by
  have above : (0 : Rat) < den := by exact_mod_cast den_positive
  unfold binaryExponent
  dsimp only
  split
  · have lower : (2 : Rat) ^ num.log2 ≤ num := by
      exact_mod_cast Nat.log2_self_le (by omega)
    have upper : (den : Rat) ≤ 2 ^ (den.log2 + 1) := by
      exact_mod_cast (@Nat.lt_log2_self den).le
    have power : (2 : Rat) ^ ((num.log2 : Int) - den.log2 - 1) =
        2 ^ num.log2 / 2 ^ (den.log2 + 1) := by
      rw [← zpow_natCast, ← zpow_natCast, ← zpow_sub₀ two_ne_zero]
      congr 1
      omega
    rw [power]
    exact div_le_div₀ (by positivity) lower above upper
  · rename_i enough
    have enough : (den : Rat) * 2 ^ ((num.log2 : Int) - den.log2).toNat ≤
        num * 2 ^ (-((num.log2 : Int) - den.log2)).toNat := by
      exact_mod_cast not_lt.mp enough
    rw [← two_pow_div_two_pow, div_le_div_iff₀ (by positivity) above]
    linarith

theorem roundHalfEven_scaled_eq_zero_iff (num : Nat) {den : Nat} (positive : 0 < den)
    (unit : Int) :
    roundHalfEven (num * Nat.pow 2 (-unit).toNat) (den * Nat.pow 2 unit.toNat) = 0 ↔
      (num / den : Rat) ≤ 2 ^ (unit - 1) := by
  have above : (0 : Rat) < den := by exact_mod_cast positive
  have proper : 0 < den * Nat.pow 2 unit.toNat := Nat.mul_pos positive (Nat.two_pow_pos _)
  rw [roundHalfEven_eq_zero_iff proper, ← @Nat.cast_le Rat]
  rw [zpow_sub_one₀ two_ne_zero, ← two_pow_div_two_pow, div_mul_eq_mul_div,
    div_le_div_iff₀ above (by positivity)]
  simp only [Nat.pow_eq]
  push_cast
  constructor
  · intro half
    linarith
  · intro half
    linarith

/-- The bits of zero belong to the numbers of at most half the least positive double. -/
theorem nearestBits_eq_zero_iff (num : Nat) {den : Nat} (positive : 0 < den) :
    nearestBits num den = 0 ↔ (num / den : Rat) ≤ halfLeast := by
  unfold nearestBits
  split
  · rename_i zero
    subst zero
    simp only [Nat.cast_zero, zero_div, true_iff, halfLeast]
    positivity
  rename_i nonzero
  dsimp only
  by_cases least : binaryExponent num den - 52 ≤ leastExponent
  · rw [max_eq_right least, sub_self, Int.toNat_zero, Nat.zero_mul, Nat.zero_add]
    exact roundHalfEven_scaled_eq_zero_iff num positive leastExponent
  · have lower := two_pow_binaryExponent_le (Nat.pos_of_ne_zero nonzero) positive
    have less : halfLeast < num / den := by
      refine lt_of_lt_of_le ?_ lower
      apply zpow_lt_zpow_right₀ one_lt_two
      omega
    rw [max_eq_left (not_le.mp least).le]
    constructor
    · intro zero
      have shifted : 0 < (binaryExponent num den - 52 - leastExponent).toNat := by omega
      have carried := Nat.mul_pos shifted (Nat.two_pow_pos 52)
      simp only [Nat.pow_eq] at zero carried
      omega
    · intro small
      exact absurd small (not_le.mpr less)

theorem unpack_ofBits (bits : UInt64) :
    (Float.ofBits bits).toModel.unpack = unpack double bits.toBitVec := by
  obtain ⟨canonical, range⟩ := isCanonical_unpack bits.toBitVec
  exact unpack_pack canonical range

section

variable (negative : Bool) {magnitude : Nat} (finite : magnitude < infinityBits)

include finite

/-- The sign bit of bits with a sign set above them. -/
private theorem sign_signed :
    decide (Nat.pow 2 63 ≤ if negative then magnitude + Nat.pow 2 63 else magnitude) =
      negative := by
  have small : magnitude < 2047 * 2 ^ 52 := finite
  cases negative with
  | false =>
    simp
    omega
  | true => simp

/-- The sign is no part of the exponent. -/
private theorem exponent_signed :
    (if negative then magnitude + Nat.pow 2 63 else magnitude) / Nat.pow 2 52 % Nat.pow 2 11 =
      magnitude / Nat.pow 2 52 := by
  have small : magnitude < 2047 * 2 ^ 52 := finite
  cases negative with
  | false =>
    simp
    omega
  | true =>
    simp
    omega

omit finite in
/-- The sign is no part of the fraction. -/
private theorem fraction_signed :
    (if negative then magnitude + Nat.pow 2 63 else magnitude) % Nat.pow 2 52 =
      magnitude % Nat.pow 2 52 := by
  cases negative with
  | false => rfl
  | true =>
    simp
    omega

/-- The bits below those of infinity and a sign stand for a value. -/
theorem Binary64.ofBits_signed :
    ∃ mantissa exponent,
      Binary64.ofBits (if negative then magnitude + Nat.pow 2 63 else magnitude) =
        .finite negative mantissa exponent ∧ (mantissa = 0 ↔ magnitude = 0) := by
  have small : magnitude < 2047 * 2 ^ 52 := finite
  unfold ofBits
  dsimp only
  rw [sign_signed negative finite, exponent_signed negative finite, fraction_signed, if_neg]
  · by_cases least : magnitude / Nat.pow 2 52 = 0
    · rw [if_pos least]
      refine ⟨_, _, rfl, ?_⟩
      simp only [Nat.pow_eq] at least ⊢
      omega
    · rw [if_neg least]
      refine ⟨_, _, rfl, ?_⟩
      simp only [Nat.pow_eq] at least ⊢
      omega
  · simp only [Nat.pow_eq]
    omega

theorem Binary64.ofFloat_signed :
    ∃ mantissa exponent, Binary64.ofFloat (signed negative magnitude) =
      .finite negative mantissa exponent ∧ (mantissa = 0 ↔ magnitude = 0) := by
  have small : magnitude < 2047 * 2 ^ 52 := finite
  have bits : (UInt64.ofNat (if negative then magnitude + Nat.pow 2 63 else magnitude)).toNat =
      if negative then magnitude + Nat.pow 2 63 else magnitude := by
    rw [UInt64.toNat_ofNat']
    apply Nat.mod_eq_of_lt
    cases negative <;> simp <;> omega
  rw [ofFloat_eq_ofUnpacked, signed, unpack_ofBits, ofUnpacked_unpack]
  change ∃ mantissa exponent, Binary64.ofBits (UInt64.toNat _) = _ ∧ _
  rw [bits]
  exact ofBits_signed negative finite

end

/-- The nearest double has a value, zero for numbers of at most half the least positive double. -/
theorem value?_of_nearest? {q : Rat} {x : Float} (found : nearest? q = some x) :
    ∃ u, value? x = some u ∧ (u = 0 ↔ |q| ≤ halfLeast) ∧ (0 ≤ q → 0 ≤ u) := by
  unfold nearest? at found
  dsimp only at found
  split at found
  · rename_i finite
    cases found
    obtain ⟨mantissa, exponent, stands, zero⟩ :=
      Binary64.ofFloat_signed (decide (q.num < 0)) finite
    have magnitude : |q| = (q.num.natAbs / q.den : Rat) := by
      rw [Nat.cast_natAbs, Int.cast_abs, ← Nat.abs_cast q.den, ← abs_div, Rat.num_div_den]
    refine ⟨_, value?_of_finite stands, ?_, ?_⟩
    · rw [scaledByTwo_eq_zero_iff, zero, magnitude]
      exact nearestBits_eq_zero_iff _ q.den_pos
    · intro nonneg
      have plus : decide (q.num < 0) = false := by
        simpa using nonneg
      rw [scaledByTwo_eq, plus]
      exact scaled_nonneg mantissa exponent
  · cases found

theorem nearest?_zero : ∃ x, nearest? 0 = some x ∧ value? x = some 0 := by
  have found : nearest? 0 = some (signed false 0) := rfl
  obtain ⟨u, valued, zero, _⟩ := value?_of_nearest? found
  have small : |(0 : Rat)| ≤ halfLeast := by
    rw [abs_zero]
    exact halfLeast_nonneg
  rw [zero.mpr small] at valued
  exact ⟨_, found, valued⟩

end SolidGeometry.Number
