import SolidGeometry.Proofs.Number.Quotient
import SolidGeometry.Proofs.Number.Undefined

namespace SolidGeometry.Number
open Float.Model Float.Model.UnpackedFloat

/-- Only the greatest exponent field stands for something other than a finite number. -/
theorem unpack_packComponents_ne_nan (s : Sign) {exponent : BitVec 11} (proper : exponent ≠ -1#11)
    (fraction : BitVec 52) :
    unpack double (packComponents double s exponent fraction) ≠ .notANumber := by
  unfold UnpackedFloat.unpack
  simp only [unpackExponent_packComponents, unpackMantissa_packComponents,
    unpackSign_packComponents]
  rw [if_neg proper]
  split
  · split <;> nofun
  · nofun

theorem unpack_pack_eq_nan_iff {f : UnpackedFloat} :
    (Float.Model.pack f).unpack = .notANumber ↔ f = .notANumber := by
  cases f with
  | notANumber => exact iff_of_true rfl rfl
  | infinity s => cases s <;> exact iff_of_false nofun nofun
  | zero s => exact iff_of_false (by rw [unpack_pack_zero]; nofun) nofun
  | finite s m e positive =>
    refine iff_of_false ?_ nofun
    change unpack double (pack double (.finite s m e positive)) ≠ _
    unfold UnpackedFloat.pack
    dsimp only
    split
    · cases s <;> nofun
    · rename_i within
      split
      · refine unpack_packComponents_ne_nan s (fun full => within ?_) _
        have field := congrArg BitVec.toNat full
        rw [BitVec.toNat_ofNat] at field
        change _ % 2048 = 2047 at field
        change 2048 ≤ _ + 1
        omega
      · exact unpack_packComponents_ne_nan s (by decide) _

theorem roundWithAccuracy_ne_nan (s : Sign) (m : Nat) (e : Int) (accuracy : Accuracy) :
    roundWithAccuracy double s m e accuracy ≠ .notANumber := by
  unfold roundWithAccuracy
  dsimp only
  split <;> nofun

theorem normalize_ne_nan (mantissa e : Int) (s : Sign) :
    UnpackedFloat.normalize double mantissa e s ≠ .notANumber := by
  unfold UnpackedFloat.normalize
  split
  · exact roundWithAccuracy_ne_nan _ _ _ _
  · nofun
  · exact roundWithAccuracy_ne_nan _ _ _ _

theorem beq_zero_of_value? {x : Float} (valued : value? x = some 0) : (x == 0) = true := by
  have meaning : (x == 0) = UnpackedFloat.beq x.toModel.unpack (0 : Float).toModel.unpack := rfl
  have zero : (0 : Float).toModel.unpack = .zero .positive := rfl
  rw [meaning, zero]
  rcases unpack_of_value? valued with ⟨s, unpacked, -⟩ | ⟨s, m, e, positive, -, vanishes⟩
  · rw [unpacked]
    cases s <;> rfl
  · exact absurd (scaledByTwo_eq_zero_iff.mp vanishes.symm) positive.ne'

theorem not_beq_zero_of_value? {x : Float} {u : Rat} (valued : value? x = some u)
    (nonzero : u ≠ 0) :
    (x == 0) = false := by
  have meaning : (x == 0) = UnpackedFloat.beq x.toModel.unpack (0 : Float).toModel.unpack := rfl
  have zero : (0 : Float).toModel.unpack = .zero .positive := rfl
  rw [meaning, zero]
  rcases unpack_of_value? valued with ⟨s, -, vanishes⟩ | ⟨s, m, e, positive, unpacked, -⟩
  · exact absurd vanishes nonzero
  · rw [unpacked]
    cases s <;> rfl

theorem float_le_of_lt {x y : Float} (before : x < y) : x ≤ y := by
  have meaning : x ≤ y ↔ UnpackedFloat.le x.toModel.unpack y.toModel.unpack = true :=
    decide_eq_true_iff
  rw [float_lt_iff] at before
  rw [meaning, UnpackedFloat.le, before]
  rfl

section

variable {x y k : Float} {u v c : Rat}

theorem not_isNaN_of_value? (valued : value? x = some u) : isNaN x = false := by
  rw [Bool.eq_false_iff, Ne, isNaN_iff_unpack]
  rcases unpack_of_value? valued with ⟨s, unpacked, -⟩ | ⟨s, m, e, positive, unpacked, -⟩
  · rw [unpacked]
    nofun
  · rw [unpacked]
    nofun

/-- A difference with a finite number is only lost with the other operand. -/
theorem isNaN_of_sub (constant : value? k = some c) :
    (isNaN (k - x) = true → isNaN x = true) ∧ (isNaN (x - k) = true → isNaN x = true) := by
  have behind : (k - x).toModel =
    Float.Model.pack (UnpackedFloat.sub double k.toModel.unpack x.toModel.unpack) := rfl
  have before : (x - k).toModel =
    Float.Model.pack (UnpackedFloat.sub double x.toModel.unpack k.toModel.unpack) := rfl
  simp only [isNaN_iff_unpack, behind, before, unpack_pack_eq_nan_iff]
  rcases unpack_of_value? constant with ⟨s, unpacked, -⟩ | ⟨s, m, e, positive, unpacked, -⟩
  · rw [unpacked]
    cases x.toModel.unpack with
    | notANumber => exact ⟨fun _ => rfl, fun _ => rfl⟩
    | infinity t => exact ⟨nofun, nofun⟩
    | zero t => cases s <;> cases t <;> exact ⟨nofun, nofun⟩
    | finite t n d other => exact ⟨nofun, nofun⟩
  · rw [unpacked]
    cases x.toModel.unpack with
    | notANumber => exact ⟨fun _ => rfl, fun _ => rfl⟩
    | infinity t => exact ⟨nofun, nofun⟩
    | zero t => exact ⟨nofun, nofun⟩
    | finite t n d other =>
      exact ⟨fun lost => absurd lost (normalize_ne_nan _ _ _),
        fun lost => absurd lost (normalize_ne_nan _ _ _)⟩

/-- A product with a finite number other than zero is only lost with the other operand. -/
theorem isNaN_of_mul (constant : value? k = some c) (nonzero : c ≠ 0)
    (lost : isNaN (x * k) = true) : isNaN x = true := by
  have product : (x * k).toModel =
    Float.Model.pack (UnpackedFloat.mul double x.toModel.unpack k.toModel.unpack) := rfl
  rw [isNaN_iff_unpack, product, unpack_pack_eq_nan_iff] at lost
  rw [isNaN_iff_unpack]
  obtain ⟨s, m, e, positive, unpacked, -⟩ :=
    (unpack_of_value? constant).resolve_left fun ⟨_, _, vanishes⟩ => nonzero vanishes
  rw [unpacked] at lost
  cases unpacked_x : x.toModel.unpack with
  | notANumber => rfl
  | infinity t =>
    rw [unpacked_x] at lost
    cases lost
  | zero t =>
    rw [unpacked_x] at lost
    cases lost
  | finite t n d other =>
    rw [unpacked_x] at lost
    exact absurd lost (roundWithAccuracy_ne_nan _ _ _ _)

/-- A quotient of finite numbers is a number, unless the divisor is zero. -/
theorem not_isNaN_quotient (dividend : value? x = some u) (divisor : value? y = some v)
    (nonzero : v ≠ 0) : isNaN (x / y) = false := by
  have quotient : (x / y).toModel =
    Float.Model.pack (UnpackedFloat.div double x.toModel.unpack y.toModel.unpack) := rfl
  rw [Bool.eq_false_iff, Ne, isNaN_iff_unpack, quotient, unpack_pack_eq_nan_iff]
  obtain ⟨t, n, e, n_positive, y_unpacked, -⟩ :=
    (unpack_of_value? divisor).resolve_left fun ⟨_, _, vanishes⟩ => nonzero vanishes
  rw [y_unpacked]
  rcases unpack_of_value? dividend with ⟨s, unpacked, -⟩ | ⟨s, m, d, positive, unpacked, -⟩
  · rw [unpacked]
    nofun
  · rw [unpacked, UnpackedFloat.div, divCore_eq]
    exact roundWithAccuracy_ne_nan _ _ _ _

end

end SolidGeometry.Number
