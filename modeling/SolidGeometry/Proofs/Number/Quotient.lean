import SolidGeometry.Proofs.Number.Rounded

namespace SolidGeometry.Number
open Float.Model Float.Model.UnpackedFloat

/-- A double with a value is unpacked to zero or to a mantissa and an exponent. -/
theorem unpack_of_value? {x : Float} {u : Rat} (valued : value? x = some u) :
    (∃ s, x.toModel.unpack = .zero s ∧ u = 0) ∨
      ∃ s m e positive, x.toModel.unpack = .finite s m e positive ∧
        u = scaledByTwo (isMinus s) m e := by
  rw [value?, Binary64.ofFloat_eq_ofUnpacked] at valued
  cases unpacked : x.toModel.unpack with
  | notANumber =>
    rw [unpacked] at valued
    cases valued
  | infinity s =>
    rw [unpacked] at valued
    cases valued
  | zero s =>
    rw [unpacked] at valued
    cases valued
    exact .inl ⟨s, rfl, scaledByTwo_eq_zero_iff.mpr rfl⟩
  | finite s m e positive =>
    rw [unpacked] at valued
    cases valued
    exact .inr ⟨s, m, e, positive, rfl, rfl⟩

theorem isZero_float_iff {x : Float} :
    (Scalar.float x).isZero = true ↔ ∃ s, x.toModel.unpack = .zero s := by
  have zero : (0 : Scalar).place? = some (.finite 0) := rfl
  rw [Scalar.isZero, Scalar.eqv, Scalar.place?, Binary64.ofFloat_eq_ofUnpacked, zero]
  cases x.toModel.unpack with
  | notANumber => simp [Binary64.ofUnpacked]
  | infinity s => cases s <;> simp [Binary64.ofUnpacked, isMinus]
  | zero s => simp [Binary64.ofUnpacked, scaledByTwo_eq_zero_iff]
  | finite s m e positive =>
    simp [Binary64.ofUnpacked, scaledByTwo_eq_zero_iff, Nat.ne_of_gt positive]

theorem isZero_zero : (Scalar.float 0.0).isZero = true :=
  isZero_float_iff.mpr ⟨.positive, rfl⟩

theorem unpack_pack_eq_zero_iff {f : UnpackedFloat} (canonical : IsCanonical f) :
    (∃ s, (Float.Model.pack f).unpack = .zero s) ↔ ∃ s, f = .zero s := by
  by_cases range : InRange f
  · rw [unpack_pack canonical range]
  · cases f with
    | notANumber => exact absurd trivial range
    | infinity s => exact absurd trivial range
    | zero s => exact absurd trivial range
    | finite s m e positive =>
      rw [unpack_pack_overflow s positive (not_le.mp range)]
      simp

section

variable {m n : Nat} {d e : Int}

/-- The exponent at which a quotient is computed. -/
def quotientExponent (m : Nat) (d : Int) (n : Nat) (e : Int) : Int :=
  min (d - e) (max ((m.log2 : Int) + d - (n.log2 + e) - 53) leastExponent)

/-- The dividend in units of that exponent. -/
def dividend (m : Nat) (d : Int) (n : Nat) (e : Int) : Nat :=
  m * 2 ^ (d - e - quotientExponent m d n e).toNat

theorem divCore_eq (m : Nat) (d : Int) (n : Nat) (e : Int) :
    divCore double m d n e = (dividend m d n e / n, quotientExponent m d n e,
      accuracyOfFraction (dividend m d n e % n) n) := by
  have target : double.targetExponent (totalExponent m d - totalExponent n e) =
      max ((m.log2 : Int) + d - (n.log2 + e) - 53) leastExponent := by
    simp only [Format.targetExponent, totalExponent, Format.mantissaBits, Format.minExponent,
      leastExponent]
    norm_num
    omega
  unfold divCore
  dsimp only
  rw [target, Nat.shiftLeft_eq]
  rfl

/-- Above the least exponent a quotient is computed with a full mantissa. -/
theorem le_dividend (m_positive : 0 < m) (above : leastExponent < quotientExponent m d n e) :
    n * 2 ^ 52 ≤ dividend m d n e := by
  have shift : n.log2 + 1 + 52 ≤ m.log2 + (d - e - quotientExponent m d n e).toNat := by
    unfold quotientExponent at above ⊢
    omega
  calc
    n * 2 ^ 52 ≤ 2 ^ (n.log2 + 1) * 2 ^ 52 := Nat.mul_le_mul_right _ Nat.lt_log2_self.le
    _ = 2 ^ (n.log2 + 1 + 52) := (pow_add ..).symm
    _ ≤ 2 ^ (m.log2 + (d - e - quotientExponent m d n e).toNat) :=
      Nat.pow_le_pow_right two_pos shift
    _ = 2 ^ m.log2 * 2 ^ (d - e - quotientExponent m d n e).toNat := pow_add ..
    _ ≤ dividend m d n e := Nat.mul_le_mul_right _ (Nat.log2_self_le (by omega))

theorem quotient_fits (m_positive : 0 < m) (n_positive : 0 < n) :
    quotientExponent m d n e ≤
      fittingExponent (dividend m d n e / n) (quotientExponent m d n e) := by
  by_cases above : leastExponent < quotientExponent m d n e
  · have full : 2 ^ 52 ≤ dividend m d n e / n := by
      rw [Nat.le_div_iff_mul_le n_positive, Nat.mul_comm]
      exact le_dividend m_positive above
    have long : 52 ≤ (dividend m d n e / n).log2 := (Nat.le_log2 (by omega)).mpr full
    unfold fittingExponent
    omega
  · exact le_trans (not_lt.mp above) (le_max_right _ _)

theorem scaled_dividend (m : Nat) (d : Int) (n : Nat) (e : Int) :
    scaled (dividend m d n e) (quotientExponent m d n e) * 2 ^ e = scaled m d := by
  have shift :
      ((d - e - quotientExponent m d n e).toNat : Int) + quotientExponent m d n e + e = d := by
    unfold quotientExponent
    omega
  unfold scaled dividend
  push_cast
  rw [mul_assoc, mul_assoc, ← zpow_natCast, ← zpow_add₀ two_ne_zero, ← zpow_add₀ two_ne_zero,
    ← add_assoc, shift]

/-- In units of an exponent, a quotient is rounded to zero up to half a unit. -/
theorem rounded_eq_zero_iff (n_positive : 0 < n) {unit : Int}
    (fits : quotientExponent m d n e ≤ unit) :
    roundHalfEven (dividend m d n e) (n * 2 ^ (unit - quotientExponent m d n e).toNat) = 0 ↔
      scaled m d ≤ scaled n e * 2 ^ (unit - 1) := by
  have power : (0 : Rat) < 2 ^ e := by positivity
  have factor : (0 : Rat) < 2 ^ quotientExponent m d n e := by positivity
  have split : (2 : Rat) ^ (unit - 1) * 2 =
      2 ^ (unit - quotientExponent m d n e).toNat * 2 ^ quotientExponent m d n e := by
    rw [← zpow_add_one₀ two_ne_zero, ← zpow_natCast, ← zpow_add₀ two_ne_zero]
    congr 1
    omega
  have whole : scaled n e * 2 ^ (unit - 1) = n * 2 ^ (unit - 1) * 2 ^ e := by
    unfold scaled
    ring
  rw [roundHalfEven_eq_zero_iff (Nat.mul_pos n_positive (Nat.two_pow_pos _)), ← @Nat.cast_le Rat,
    ← scaled_dividend m d n e, whole, mul_le_mul_iff_left₀ power]
  unfold scaled
  rw [← mul_le_mul_iff_left₀ factor]
  push_cast
  rw [mul_assoc (n : Rat), ← split]
  constructor
  · intro half
    linarith
  · intro half
    linarith

/-- The rounded mantissa of a quotient vanishes if the quotient is small. -/
theorem rounded_quotient_eq_zero_iff (m_positive : 0 < m) (n_positive : 0 < n) :
    roundHalfEven (dividend m d n e) (n * 2 ^ (fittingExponent (dividend m d n e / n)
      (quotientExponent m d n e) - quotientExponent m d n e).toNat) = 0 ↔
        scaled m d ≤ scaled n e * halfLeast := by
  have fits := quotient_fits m_positive n_positive (d := d) (e := e)
  have rounded := rounded_eq_zero_iff n_positive fits
  obtain ⟨-, full | least⟩ := shifted_bounds fits
  · have proper : ¬roundHalfEven (dividend m d n e) (n * 2 ^ (fittingExponent
        (dividend m d n e / n) (quotientExponent m d n e) -
          quotientExponent m d n e).toNat) = 0 := by
      rw [Nat.div_div_eq_div_mul] at full
      have lower := le_trans full (whole_le_roundHalfEven _ _)
      omega
    have larger : scaled n e * halfLeast ≤ scaled n e * 2 ^ (fittingExponent (dividend m d n e / n)
        (quotientExponent m d n e) - 1) := by
      apply mul_le_mul_of_nonneg_left _ (scaled_nonneg n e)
      apply zpow_le_zpow_right₀ one_le_two
      exact sub_le_sub_right (le_max_right _ _) 1
    exact iff_of_false proper fun small => proper (rounded.mpr (small.trans larger))
  · rw [rounded, least]
    rfl

/-- A quotient of doubles is zero if it is small, and canonical otherwise. -/
theorem div_finite (s t : Sign) (m_positive : 0 < m) (n_positive : 0 < n) :
    (scaled m d ≤ scaled n e * halfLeast →
      ∃ r, UnpackedFloat.div double (.finite s m d m_positive) (.finite t n e n_positive) =
        .zero r) ∧
    (¬scaled m d ≤ scaled n e * halfLeast →
      ∃ r mantissa exponent nonzero,
        UnpackedFloat.div double (.finite s m d m_positive) (.finite t n e n_positive) =
          .finite r mantissa exponent nonzero ∧ Canonical mantissa exponent) := by
  have fits := quotient_fits m_positive n_positive (d := d) (e := e)
  have holds := holds_accuracyOfFraction (dividend m d n e) n_positive
  obtain ⟨none, some⟩ := roundWithAccuracy_spec (s / t) n_positive holds fits rfl
  have quotient : UnpackedFloat.div double (.finite s m d m_positive) (.finite t n e n_positive) =
      roundWithAccuracy double (s / t) (dividend m d n e / n) (quotientExponent m d n e)
        (accuracyOfFraction (dividend m d n e % n) n) := by
    rw [UnpackedFloat.div, divCore_eq]
  rw [quotient, ← rounded_quotient_eq_zero_iff m_positive n_positive]
  constructor
  · intro zero
    exact ⟨_, none zero⟩
  · intro proper
    obtain ⟨mantissa, exponent, nonzero, finite, canonical, -⟩ := some proper
    exact ⟨_, mantissa, exponent, nonzero, finite, canonical⟩

end

/-- A quotient of doubles is zero exactly if the quotient of their values is at most half the least
positive double. -/
theorem isZero_quotient_iff {x y : Float} {u v : Rat} (dividend : value? x = some u)
    (divisor : value? y = some v) (nonzero : v ≠ 0) :
    (Scalar.float (x / y)).isZero = true ↔ |u| ≤ |v| * halfLeast := by
  have quotient : (x / y).toModel = Float.Model.pack
      (UnpackedFloat.div double x.toModel.unpack y.toModel.unpack) := rfl
  rw [isZero_float_iff, quotient]
  obtain ⟨t, n, e, n_positive, y_unpacked, rfl⟩ :=
    (unpack_of_value? divisor).resolve_left fun ⟨_, _, vanishes⟩ => nonzero vanishes
  rw [y_unpacked, abs_scaledByTwo]
  rcases unpack_of_value? dividend with
    ⟨s, x_unpacked, rfl⟩ | ⟨s, m, d, m_positive, x_unpacked, rfl⟩
  · rw [x_unpacked, UnpackedFloat.div, unpack_pack_zero, abs_zero]
    have nonneg : 0 ≤ scaled n e * halfLeast :=
      mul_nonneg (scaled_nonneg n e) halfLeast_nonneg
    exact iff_of_true ⟨_, rfl⟩ nonneg
  · rw [x_unpacked, abs_scaledByTwo]
    obtain ⟨small, large⟩ := div_finite s t m_positive n_positive (d := d) (e := e)
    by_cases little : scaled m d ≤ scaled n e * halfLeast
    · obtain ⟨r, quotient⟩ := small little
      rw [quotient, unpack_pack_zero]
      exact iff_of_true ⟨_, rfl⟩ little
    · obtain ⟨r, mantissa, exponent, positive, quotient, canonical⟩ := large little
      have packed : IsCanonical (.finite r mantissa exponent positive) := canonical
      rw [quotient, unpack_pack_eq_zero_iff packed]
      refine iff_of_false ?_ little
      rintro ⟨_, same⟩
      cases same

end SolidGeometry.Number
