import Mathlib.Data.Nat.Sqrt
import SolidGeometry.Proofs.Number.Quotient

/-! Square roots of doubles. The root of a positive double is positive, and its exponent is half
that of the double, so that quotients of roots are never rounded to zero. -/
namespace SolidGeometry.Number
open Float.Model Float.Model.UnpackedFloat

section

variable {m : Nat} {e : Int}

/-- The exponent at which a square root is computed. -/
def rootExponent (m : Nat) (e : Int) : Int :=
  min (e / 2) (max (((m.log2 : Int) + 1 + e + 1) / 2 - 53) leastExponent)

/-- The radicand in units of the square of that exponent. -/
def radicand (m : Nat) (e : Int) : Nat := m * 2 ^ (e - 2 * rootExponent m e).toNat

theorem sqrtCore_eq (m : Nat) (e : Int) :
    ∃ accuracy, sqrtCore double m e = (Nat.sqrt (radicand m e), rootExponent m e, accuracy) := by
  have halved (n : Int) : n.ediv 2 = n / 2 := rfl
  have target : double.targetExponent ((totalExponent m e + 1).ediv 2) =
      max (((m.log2 : Int) + 1 + e + 1) / 2 - 53) leastExponent := by
    simp only [Format.targetExponent, totalExponent, Format.mantissaBits, Format.minExponent,
      leastExponent, halved]
    norm_num
  unfold sqrtCore
  dsimp only
  rw [target, Nat.shiftLeft_eq]
  exact ⟨_, rfl⟩

/-- The root of a number has half its bits. -/
theorem log2_sqrt {n : Nat} (positive : 0 < n) : (Nat.sqrt n).log2 = n.log2 / 2 := by
  have root_positive : 0 < Nat.sqrt n := Nat.sqrt_pos.mpr positive
  apply le_antisymm
  · rw [Nat.le_div_iff_mul_le two_pos, Nat.le_log2 (by omega), pow_mul]
    calc
      (2 ^ (Nat.sqrt n).log2) ^ 2 ≤ Nat.sqrt n ^ 2 :=
        Nat.pow_le_pow_left (Nat.log2_self_le (by omega)) 2
      _ ≤ n := Nat.sqrt_le' n
  · rw [Nat.le_log2 (by omega), Nat.le_sqrt, ← pow_add]
    refine le_trans (Nat.pow_le_pow_right two_pos ?_) (Nat.log2_self_le (by omega))
    omega

theorem log2_mul_two_pow {n : Nat} (positive : 0 < n) (shift : Nat) :
    (n * 2 ^ shift).log2 = n.log2 + shift := by
  rw [Nat.log2_eq_iff (Nat.mul_pos positive (Nat.two_pow_pos _)).ne']
  constructor
  · rw [pow_add]
    exact Nat.mul_le_mul_right _ (Nat.log2_self_le positive.ne')
  · rw [add_right_comm, pow_add]
    exact Nat.mul_lt_mul_of_pos_right Nat.lt_log2_self (Nat.two_pow_pos _)

/-- The bits of a root and its exponent. -/
theorem log2_root (positive : 0 < m) :
    ((Nat.sqrt (radicand m e)).log2 : Int) + rootExponent m e = ((m.log2 : Int) + e) / 2 := by
  unfold radicand
  rw [log2_sqrt (Nat.mul_pos positive (Nat.two_pow_pos _)), log2_mul_two_pow positive]
  have shift : 2 * rootExponent m e ≤ e := by
    unfold rootExponent
    omega
  omega

/-- A root is computed with a full mantissa. -/
theorem le_log2_root (positive : 0 < m) (least : leastExponent ≤ e) :
    52 ≤ (Nat.sqrt (radicand m e)).log2 := by
  have bits := log2_root positive (e := e)
  unfold rootExponent leastExponent at *
  omega

/-- The root of a positive double. -/
theorem sqrt_finite (positive : 0 < m) (canonical : Canonical m e)
    (greatest : e ≤ greatestExponent) :
    ∃ mantissa exponent nonzero,
      UnpackedFloat.sqrt double (.finite .positive m e positive) =
        .finite .positive mantissa exponent nonzero ∧ Canonical mantissa exponent ∧
          (2 : Rat) ^ (-537 : Int) ≤ scaled mantissa exponent ∧
            scaled mantissa exponent ≤ 2 ^ (512 : Int) := by
  obtain ⟨accuracy, core⟩ := sqrtCore_eq m e
  obtain ⟨rest, small, holds⟩ := exists_holds (Nat.sqrt (radicand m e)) accuracy
  have bits := log2_root positive (e := e)
  have long := le_log2_root positive canonical.least
  have unit : fittingExponent (Nat.sqrt (radicand m e)) (rootExponent m e) =
      ((m.log2 : Int) + e) / 2 - 52 := by
    have least := canonical.least
    unfold fittingExponent leastExponent at *
    omega
  have fits : rootExponent m e ≤
      fittingExponent (Nat.sqrt (radicand m e)) (rootExponent m e) := by
    omega
  obtain ⟨-, some⟩ := roundWithAccuracy_spec .positive (by omega) holds fits rfl
  obtain ⟨upper, full⟩ := rounded_bounds holds fits rfl
  generalize roundHalfEven _ _ = r at some upper full
  rw [unit] at some full
  have lower : 2 ^ 52 ≤ r := by
    have least := canonical.least
    unfold leastExponent at *
    omega
  obtain ⟨mantissa, exponent, nonzero, finite, fitting, same⟩ := some (by omega)
  have short : m.log2 < 53 := (Nat.log2_lt positive.ne').mpr canonical.bounded
  refine ⟨mantissa, exponent, nonzero, ?_, fitting, ?_, ?_⟩
  · rw [UnpackedFloat.sqrt, core]
    exact finite
  · rw [same]
    refine le_trans (zpow_le_zpow_right₀ one_le_two ?_) (two_pow_le_scaled lower _)
    have least := canonical.least
    unfold leastExponent at least
    omega
  · rw [same]
    refine le_trans (scaled_le_two_pow upper _) (zpow_le_zpow_right₀ one_le_two ?_)
    unfold greatestExponent at greatest
    omega

end

theorem le_greatestExponent {mantissa : Nat} {exponent : Int}
    (canonical : Canonical mantissa exponent)
    (small : scaled mantissa exponent ≤ 2 ^ (512 : Int)) : exponent ≤ greatestExponent := by
  by_contra large
  have above : 971 < exponent := not_le.mp large
  have full : 2 ^ 52 ≤ mantissa := by
    refine canonical.full.resolve_right ?_
    unfold leastExponent
    omega
  have power : (2 : Rat) ^ (512 : Int) < 2 ^ (((52 : Nat) : Int) + exponent) :=
    zpow_lt_zpow_right₀ one_lt_two (by omega)
  exact absurd small (not_le.mpr (power.trans_le (two_pow_le_scaled full exponent)))

/-- The square root of a double has a value, far from the least and the greatest doubles unless it
is zero. -/
theorem value?_sqrt {x : Float} {u : Rat} (valued : value? x = some u) (nonneg : 0 ≤ u) :
    ∃ v, value? x.sqrt = some v ∧ 0 ≤ v ∧ (u = 0 → v = 0) ∧ (u ≠ 0 → 2 ^ (-537 : Int) ≤ v) ∧
      v ≤ 2 ^ (512 : Int) := by
  have root : x.sqrt.toModel = Float.Model.pack (UnpackedFloat.sqrt double x.toModel.unpack) := rfl
  have range := isCanonical_unpack x.toModel.toBits.toBitVec
  change IsCanonical x.toModel.unpack ∧ InRange x.toModel.unpack at range
  rcases unpack_of_value? valued with ⟨s, unpacked, rfl⟩ | ⟨s, m, e, positive, unpacked, rfl⟩
  · have stands : Binary64.ofFloat x.sqrt = .finite (isMinus s) 0 leastExponent := by
      rw [Binary64.ofFloat_eq_ofUnpacked, root, unpacked, UnpackedFloat.sqrt, unpack_pack_zero]
      rfl
    have zero : scaledByTwo (isMinus s) 0 leastExponent = 0 := scaledByTwo_eq_zero_iff.mpr rfl
    refine ⟨_, value?_of_finite stands, ?_⟩
    rw [zero]
    exact ⟨le_rfl, fun _ => rfl, fun proper => absurd rfl proper, zpow_nonneg two_pos.le _⟩
  · cases s with
    | negative =>
      rw [scaledByTwo_eq, isMinus, if_pos rfl] at nonneg
      have none : scaled m e = 0 := le_antisymm (neg_nonneg.mp nonneg) (scaled_nonneg m e)
      exact absurd (scaled_eq_zero_iff.mp none) positive.ne'
    | positive =>
      rw [unpacked] at range
      obtain ⟨mantissa, exponent, nonzero, finite, canonical, lower, upper⟩ :=
        sqrt_finite positive range.1 range.2
      have packed : IsCanonical (.finite .positive mantissa exponent nonzero) := canonical
      have fits : InRange (.finite .positive mantissa exponent nonzero) :=
        le_greatestExponent canonical upper
      have stands : Binary64.ofFloat x.sqrt = .finite false mantissa exponent := by
        rw [Binary64.ofFloat_eq_ofUnpacked, root, unpacked, finite, unpack_pack packed fits]
        rfl
      have result : scaledByTwo false mantissa exponent = scaled mantissa exponent :=
        scaledByTwo_eq false mantissa exponent
      refine ⟨_, value?_of_finite stands, ?_⟩
      rw [result]
      refine ⟨scaled_nonneg _ _, ?_, fun _ => lower, upper⟩
      intro none
      exact absurd (scaledByTwo_eq_zero_iff.mp none) positive.ne'

end SolidGeometry.Number
