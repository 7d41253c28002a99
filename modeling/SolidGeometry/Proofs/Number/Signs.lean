import SolidGeometry.Proofs.Number.Quotient

namespace SolidGeometry.Number
open Float.Model Float.Model.UnpackedFloat

/-- An unpacked double that is not below zero. Zero has either sign. -/
def NotNegative : UnpackedFloat → Prop
  | .infinity s => s = .positive
  | .finite s _ _ _ => s = .positive
  | _ => True

theorem float_lt_iff (x y : Float) :
    x < y ↔ UnpackedFloat.compare x.toModel.unpack y.toModel.unpack = some .lt := by
  have meaning : x < y ↔ UnpackedFloat.lt x.toModel.unpack y.toModel.unpack = true :=
    decide_eq_true_iff
  rw [meaning, UnpackedFloat.lt, beq_iff_eq]

/-- Compared the other way round, two doubles are in the opposite order. -/
theorem compare_swap (f g : UnpackedFloat) :
    UnpackedFloat.compare g f = (UnpackedFloat.compare f g).map Ordering.swap := by
  have signs (s t : UnpackedFloat.Sign) : compare t s = (compare s t).swap := by
    cases s <;> cases t <;> rfl
  cases f with
  | notANumber => cases g <;> rfl
  | infinity s =>
    cases g with
    | notANumber => cases s <;> rfl
    | infinity t => exact congrArg some (signs s t)
    | zero t => cases s <;> rfl
    | finite t n d above => cases s <;> rfl
  | zero s =>
    cases g with
    | notANumber => rfl
    | infinity t => cases t <;> rfl
    | zero t => rfl
    | finite t n d above => cases t <;> rfl
  | finite s m e positive =>
    cases g with
    | notANumber => cases s <;> rfl
    | infinity t => cases s <;> cases t <;> rfl
    | zero t => cases s <;> rfl
    | finite t n d above =>
      have exponents : compare d e = (compare e d).swap := Std.OrientedCmp.eq_swap
      have mantissas : compare n m = (compare m n).swap := Std.OrientedCmp.eq_swap
      cases s <;> cases t <;>
        simp [UnpackedFloat.compare, exponents, mantissas, Ordering.swap_then]

theorem float_lt_asymm {x y : Float} (before : x < y) : ¬y < x := by
  rw [float_lt_iff] at before ⊢
  rw [compare_swap, before]
  decide

theorem lt_zero_iff (x : Float) : x < 0 ↔ ¬NotNegative x.toModel.unpack := by
  have zero : (0 : Float).toModel.unpack = .zero .positive := rfl
  rw [float_lt_iff, zero]
  cases x.toModel.unpack with
  | notANumber => simp [UnpackedFloat.compare, NotNegative]
  | infinity s => cases s <;> simp [UnpackedFloat.compare, NotNegative]
  | zero s => simp [UnpackedFloat.compare, NotNegative]
  | finite s m e positive =>
    cases s <;> simp [UnpackedFloat.compare, NotNegative]

/-- The bits without a sign are those of a double that is not below zero. -/
theorem notNegative_unpack_packComponents (exponent : BitVec 11) (fraction : BitVec 52) :
    NotNegative (unpack double (packComponents double .positive exponent fraction)) := by
  unfold UnpackedFloat.unpack
  dsimp only
  rw [unpackSign_packComponents, ofBitVec_toBitVec]
  split
  · split
    · exact rfl
    · exact trivial
  · split
    · split
      · exact trivial
      · exact rfl
    · exact rfl

/-- Packing keeps the sign, also where it rounds. -/
theorem NotNegative.unpack_pack {f : UnpackedFloat} (proper : NotNegative f) :
    NotNegative (Float.Model.pack f).unpack := by
  cases f with
  | notANumber => exact trivial
  | infinity s =>
    obtain rfl : s = .positive := proper
    exact rfl
  | zero s =>
    rw [unpack_pack_zero]
    exact trivial
  | finite s m e positive =>
    obtain rfl : s = .positive := proper
    change NotNegative (unpack double (pack double (.finite .positive m e positive)))
    unfold UnpackedFloat.pack
    dsimp only
    split
    · exact notNegative_unpack_packComponents _ _
    · split
      · exact notNegative_unpack_packComponents _ _
      · exact notNegative_unpack_packComponents _ _

theorem notNegative_roundWithAccuracy (m : Nat) (e : Int) (accuracy : Accuracy) :
    NotNegative (roundWithAccuracy double .positive m e accuracy) := by
  unfold roundWithAccuracy
  dsimp only
  split
  · exact trivial
  · exact rfl

theorem notNegative_normalize (mantissa : Nat) (e : Int) :
    NotNegative (UnpackedFloat.normalize double mantissa e .positive) := by
  unfold UnpackedFloat.normalize
  split
  · rename_i below
    rw [Int.compare_eq_lt] at below
    omega
  · exact trivial
  · exact notNegative_roundWithAccuracy _ _ _

theorem notNegative_mul_self (f : UnpackedFloat) : NotNegative (UnpackedFloat.mul double f f) := by
  have square (s : UnpackedFloat.Sign) : s * s = .positive := by cases s <;> rfl
  cases f with
  | notANumber => exact trivial
  | infinity s => exact square s
  | zero s => exact trivial
  | finite s m e positive =>
    rw [UnpackedFloat.mul, square]
    exact notNegative_roundWithAccuracy _ _ _

theorem NotNegative.mul {f g : UnpackedFloat} (first : NotNegative f) (second : NotNegative g) :
    NotNegative (UnpackedFloat.mul double f g) := by
  cases f with
  | notANumber => exact trivial
  | infinity s =>
    obtain rfl : s = .positive := first
    cases g with
    | notANumber => exact trivial
    | infinity t => obtain rfl : t = .positive := second; exact rfl
    | zero t => exact trivial
    | finite t n d above => obtain rfl : t = .positive := second; exact rfl
  | zero s =>
    cases g with
    | notANumber => exact trivial
    | infinity t => exact trivial
    | zero t => exact trivial
    | finite t n d above => exact trivial
  | finite s m e positive =>
    obtain rfl : s = .positive := first
    cases g with
    | notANumber => exact trivial
    | infinity t => obtain rfl : t = .positive := second; exact rfl
    | zero t => exact trivial
    | finite t n d above =>
      obtain rfl : t = .positive := second
      exact notNegative_roundWithAccuracy _ _ _

theorem NotNegative.add {f g : UnpackedFloat} (first : NotNegative f) (second : NotNegative g) :
    NotNegative (UnpackedFloat.add double f g) := by
  cases f with
  | notANumber => exact trivial
  | infinity s =>
    obtain rfl : s = .positive := first
    cases g with
    | notANumber => exact trivial
    | infinity t => obtain rfl : t = .positive := second; exact rfl
    | zero t => exact rfl
    | finite t n d above => exact rfl
  | zero s =>
    cases g with
    | notANumber => exact trivial
    | infinity t => exact second
    | zero t =>
      change NotNegative (if s == t then .zero s else .zero .positive)
      split
      · exact trivial
      · exact trivial
    | finite t n d above => exact second
  | finite s m e positive =>
    cases g with
    | notANumber => exact trivial
    | infinity t => exact second
    | zero t => exact first
    | finite t n d above =>
      obtain rfl : s = .positive := first
      obtain rfl : t = .positive := second
      exact notNegative_normalize
        ((decreaseExponent m e (min e d)).1 + (decreaseExponent n d (min e d)).1) (min e d)

end SolidGeometry.Number

namespace SolidGeometry.Scalar
open Number

/-- A number that is not below zero; what is not a number is not. -/
def NotNegative : Scalar → Prop
  | int n => 0 ≤ n
  | ratio q => 0 ≤ q
  | float x => ¬x < 0
  | undefined => True

theorem NotNegative.toFloat {a : Scalar} {x : Float} (proper : a.NotNegative)
    (converts : a.toFloat = .ok x) : ¬x < 0 := by
  have nearest {q : Rat} (nonneg : 0 ≤ q) (found : nearest? q = some x) : ¬x < 0 := by
    obtain ⟨u, valued, -, positive⟩ := value?_of_nearest? found
    have u_nonneg := positive nonneg
    rw [lt_zero_iff, not_not]
    rcases unpack_of_value? valued with ⟨s, unpacked, -⟩ | ⟨s, m, e, above, unpacked, rfl⟩
    · rw [unpacked]
      exact trivial
    · rw [unpacked]
      cases s with
      | positive => exact rfl
      | negative =>
        rw [scaledByTwo_eq, isMinus, if_pos rfl] at u_nonneg
        have none : scaled m e = 0 := le_antisymm (neg_nonneg.mp u_nonneg) (scaled_nonneg m e)
        exact absurd (scaled_eq_zero_iff.mp none) above.ne'
  cases a with
  | int n =>
    cases found : nearest? n with
    | none => simp [Scalar.toFloat, found] at converts
    | some y =>
      obtain rfl : y = x := by simpa [Scalar.toFloat, found] using converts
      exact nearest (Int.cast_nonneg proper) found
  | ratio q =>
    cases found : nearest? q with
    | none => simp [Scalar.toFloat, found] at converts
    | some y =>
      obtain rfl : y = x := by simpa [Scalar.toFloat, found] using converts
      exact nearest proper found
  | float y =>
    cases converts
    exact proper
  | undefined =>
    cases converts
    rw [lt_zero_iff, not_not]
    exact trivial

theorem NotNegative.rational {a : Scalar} {q : Rat} (proper : a.NotNegative)
    (exact : a.rational? = some q) : 0 ≤ q := by
  cases a with
  | int n =>
    cases exact
    exact Int.cast_nonneg proper
  | ratio r =>
    cases exact
    exact proper
  | float x => cases exact
  | undefined => cases exact

section

variable {onInt : Int → Int → Int} {onRat : Rat → Rat → Rat} {onFloat : Float → Float → Float}
  {a b c : Scalar}

/-- Arithmetic is done with integers, with fractions or with floats. -/
theorem combine_cases (returns : combine onInt onRat onFloat a b = .ok c) :
    (∃ m n, a = .int m ∧ b = .int n ∧ c = .int (onInt m n)) ∨
      (∃ p q, a.rational? = some p ∧ b.rational? = some q ∧ c = .ratio (onRat p q)) ∨
        ∃ x y, a.toFloat = .ok x ∧ b.toFloat = .ok y ∧ c = .float (onFloat x y) := by
  have rounded (both : (do return .float (onFloat (← a.toFloat) (← b.toFloat)) : Checked Scalar) =
      .ok c) : ∃ x y, a.toFloat = .ok x ∧ b.toFloat = .ok y ∧ c = .float (onFloat x y) := by
    cases first : a.toFloat with
    | error e => simp [first, bind, Except.bind] at both
    | ok x =>
      cases second : b.toFloat with
      | error e => simp [first, second, bind, Except.bind] at both
      | ok y =>
        simp only [first, second, bind, Except.bind, pure, Except.pure, Except.ok.injEq] at both
        exact ⟨x, y, rfl, rfl, both.symm⟩
  cases a with
  | int m =>
    cases b with
    | int n => exact .inl ⟨m, n, rfl, rfl, (Except.ok.inj returns).symm⟩
    | ratio q => exact .inr (.inl ⟨m, q, rfl, rfl, (Except.ok.inj returns).symm⟩)
    | float y => exact .inr (.inr (rounded returns))
    | undefined => exact .inr (.inr (rounded returns))
  | ratio p =>
    cases b with
    | int n => exact .inr (.inl ⟨p, n, rfl, rfl, (Except.ok.inj returns).symm⟩)
    | ratio q => exact .inr (.inl ⟨p, q, rfl, rfl, (Except.ok.inj returns).symm⟩)
    | float y => exact .inr (.inr (rounded returns))
    | undefined => exact .inr (.inr (rounded returns))
  | float x => exact .inr (.inr (rounded returns))
  | undefined => exact .inr (.inr (rounded returns))

theorem NotNegative.add (first : a.NotNegative) (second : b.NotNegative)
    (returns : a.add b = .ok c) : c.NotNegative := by
  rcases combine_cases returns with
    ⟨m, n, rfl, rfl, rfl⟩ | ⟨p, q, p_value, q_value, rfl⟩ | ⟨x, y, left, right, rfl⟩
  · exact Int.add_nonneg first second
  · exact add_nonneg (first.rational p_value) (second.rational q_value)
  · have x_proper := first.toFloat left
    have y_proper := second.toFloat right
    rw [lt_zero_iff, not_not] at x_proper y_proper
    change ¬(x + y) < 0
    rw [lt_zero_iff, not_not]
    exact (x_proper.add y_proper).unpack_pack

theorem NotNegative.mul (first : a.NotNegative) (second : b.NotNegative)
    (returns : a.mul b = .ok c) : c.NotNegative := by
  rcases combine_cases returns with
    ⟨m, n, rfl, rfl, rfl⟩ | ⟨p, q, p_value, q_value, rfl⟩ | ⟨x, y, left, right, rfl⟩
  · exact Int.mul_nonneg first second
  · exact mul_nonneg (first.rational p_value) (second.rational q_value)
  · have x_proper := first.toFloat left
    have y_proper := second.toFloat right
    rw [lt_zero_iff, not_not] at x_proper y_proper
    change ¬(x * y) < 0
    rw [lt_zero_iff, not_not]
    exact (x_proper.mul y_proper).unpack_pack

theorem notNegative_square (returns : a.mul a = .ok c) : c.NotNegative := by
  rcases combine_cases returns with
    ⟨m, n, rfl, same, rfl⟩ | ⟨p, q, p_value, q_value, rfl⟩ | ⟨x, y, left, right, rfl⟩
  · cases same
    exact mul_self_nonneg m
  · cases p_value.symm.trans q_value
    exact mul_self_nonneg p
  · cases left.symm.trans right
    change ¬(x * x) < 0
    rw [lt_zero_iff, not_not]
    exact (notNegative_mul_self x.toModel.unpack).unpack_pack

end

end SolidGeometry.Scalar
