import SolidGeometry.Operation.Distance
import SolidGeometry.Proofs.Geometry.Conversion
import SolidGeometry.Proofs.Geometry.Domains
import SolidGeometry.Proofs.Number.Root

namespace SolidGeometry
open Number

/-- The double nearest to an exact number is zero. -/
def Vanishes (q : Rat) : Prop := |q| ≤ halfLeast

theorem vanishes_zero : Vanishes 0 := by
  rw [Vanishes, abs_zero]
  exact halfLeast_nonneg

section

variable {a b : Scalar} {q : Rat} {x y : Float}

theorem Scalar.toFloat_exact (exact : a.rational? = some q) :
    (∃ x, a.toFloat = .ok x ∧ nearest? q = some x) ∨
      ∃ e, a.toFloat = .error e ∧ nearest? q = none := by
  cases a with
  | int n =>
    cases exact
    cases found : nearest? n <;> simp [toFloat, found]
  | ratio r =>
    cases exact
    cases found : nearest? q <;> simp [toFloat, found]
  | float z => cases exact
  | undefined => cases exact

theorem Scalar.toFloat_eq_ok (exact : a.rational? = some q) :
    a.toFloat = .ok x ↔ nearest? q = some x := by
  rcases toFloat_exact exact with ⟨z, converts, found⟩ | ⟨e, fails, missing⟩
  · simp [converts, found]
  · simp [fails, missing]

theorem Scalar.notNegative_of_rational (exact : a.rational? = some q) (nonneg : 0 ≤ q) :
    a.NotNegative := by
  cases a with
  | int n =>
    cases exact
    exact Int.cast_nonneg_iff.mp nonneg
  | ratio r =>
    cases exact
    exact nonneg
  | float x => cases exact
  | undefined => cases exact

theorem Scalar.sqrt_eq_ok (exact : a.rational? = some q) (nonneg : 0 ≤ q) :
    a.sqrt = .ok y ↔ ∃ x, nearest? q = some x ∧ x.sqrt = y := by
  rw [sqrt_eq (notNegative_of_rational exact nonneg), Checked.bind_eq_ok]
  simp only [toFloat_eq_ok exact]
  constructor
  · rintro ⟨x, found, same⟩
    cases same
    exact ⟨x, found, rfl⟩
  · rintro ⟨x, found, rfl⟩
    exact ⟨x, found, rfl⟩

/-- The root of an exact square is zero exactly if the square vanishes, and else far from the least
and the greatest doubles. -/
theorem exists_value_sqrt (nonneg : 0 ≤ q) (found : nearest? q = some x) :
    ∃ v, value? x.sqrt = some v ∧ 0 ≤ v ∧ (v = 0 ↔ Vanishes q) ∧
      (v ≠ 0 → 2 ^ (-537 : Int) ≤ v) ∧ v ≤ 2 ^ (512 : Int) := by
  obtain ⟨u, valued, zero, positive⟩ := value?_of_nearest? found
  obtain ⟨v, root, v_nonneg, of_zero, of_proper, upper⟩ := value?_sqrt valued (positive nonneg)
  have power : (0 : Rat) < 2 ^ (-537 : Int) := by positivity
  have same : v = 0 ↔ u = 0 := by
    constructor
    · intro none
      by_contra proper
      have lower := of_proper proper
      linarith
    · exact of_zero
  refine ⟨v, root, v_nonneg, same.trans zero, ?_, upper⟩
  intro proper
  exact of_proper (mt same.mpr proper)

/-- A quotient by a double is no number if the double is zero. -/
theorem Scalar.divide_float {d : Scalar} {v : Rat} (divisor : value? y = some v)
    (returns : (a.divide (.float y)).result = .ok d) :
    (v = 0 ∧ d = .undefined) ∨ (v ≠ 0 ∧ ∃ x, a.toFloat = .ok x ∧ d = .float (x / y)) := by
  have proper := isZero_float divisor
  unfold divide at returns
  by_cases zero : v = 0
  · rw [if_pos (by rw [proper, decide_eq_true zero])] at returns
    simp only [Noted.result_bind] at returns
    obtain ⟨_, _, _, _, _, _, result⟩ := returns
    cases result
    exact .inl ⟨zero, rfl⟩
  · rw [if_neg (by simp [proper, zero])] at returns
    have quotient : (do return .float (← a.floatQuotient (.float y)) : Computation Scalar).result =
        .ok d := by
      cases a <;> exact returns
    simp only [Noted.result_bind, Noted.result_lift, floatQuotient, Checked.bind_eq_ok] at quotient
    obtain ⟨z, ⟨x, converted, _, kept, divided⟩, result⟩ := quotient
    cases kept
    split at divided
    · cases divided
    · cases divided
      cases result
      exact .inr ⟨zero, x, converted, rfl⟩

end

/-- The quotient of the doubles nearest to a height and to the root of a square is rounded to zero.
-/
def Underflows (height square : Rat) : Prop :=
  ∃ x y u v, nearest? |height| = some x ∧ nearest? square = some y ∧ value? x = some u ∧
    value? y.sqrt = some v ∧ u ≤ v * halfLeast

/-- A height divided by the root of a square is measured as zero. -/
def TakenForZero (height square : Rat) : Prop := ¬Vanishes square ∧ Underflows height square

section

variable {v w : Vector} {p q base direction normal : Point} {offset : Rat} {c : Scalar} {y : Float}

theorem Vector.length_eq_ok (exact : v.value? = some p) :
    v.length = .ok y ↔ ∃ x, nearest? (p.dot p) = some x ∧ x.sqrt = y := by
  obtain ⟨d, squared, d_value⟩ := dot_exact exact exact
  rw [length, squared]
  exact Scalar.sqrt_eq_ok d_value (Point.dot_self_nonneg p)

theorem Vector.area_eq_ok (first : v.value? = some p) (second : w.value? = some q) :
    v.area w = .ok y ↔ ∃ x, nearest? ((p.cross q).dot (p.cross q)) = some x ∧ x.sqrt = y := by
  obtain ⟨n, crossed, n_value⟩ := cross_exact first second
  rw [area, crossed]
  exact length_eq_ok n_value

/-- The measured distance of points is zero if the square of the exact one vanishes. -/
theorem Vector.isZero_distance (first : v.value? = some p) (second : w.value? = some q)
    (returns : v.distance w = .ok y) :
    (Scalar.float y).isZero = true ↔ Vanishes ((q - p).dot (q - p)) := by
  obtain ⟨gap, moved, gap_value⟩ := between_exact first second
  rw [distance, Checked.bind_eq_ok] at returns
  obtain ⟨_, found, measured⟩ := returns
  cases moved.symm.trans found
  obtain ⟨x, nearest, rfl⟩ := (length_eq_ok gap_value).mp measured
  obtain ⟨r, root, _, zero, _⟩ := exists_value_sqrt (Point.dot_self_nonneg _) nearest
  rw [isZero_float root, decide_eq_true_iff]
  exact zero

/-- The measured quotient of a height and a length. -/
theorem isZero_of_height {a : Scalar} (height : a.rational? = some offset)
    (divisor : v.value? = some normal) (measured : v.length = .ok y)
    (returns : (a.abs.divide (.float y)).result = .ok c) :
    (c.isZero = true ↔ TakenForZero offset (normal.dot normal)) ∧
      (offset = 0 → Underflows offset (normal.dot normal)) := by
  obtain ⟨z, square, rfl⟩ := (Vector.length_eq_ok divisor).mp measured
  obtain ⟨r, root, r_nonneg, zero, _⟩ := exists_value_sqrt (Point.dot_self_nonneg _) square
  have level : offset = 0 → Underflows offset (normal.dot normal) := by
    rintro rfl
    obtain ⟨x, found, valued⟩ := nearest?_zero
    rw [← abs_zero] at found
    exact ⟨x, z, 0, r, found, square, valued, root, mul_nonneg r_nonneg halfLeast_nonneg⟩
  refine ⟨?_, level⟩
  rcases Scalar.divide_float root returns with ⟨none, rfl⟩ | ⟨some, x, converted, rfl⟩
  · simp [TakenForZero, zero.mp none, Scalar.isZero, Scalar.eqv, Scalar.place?]
  · rw [Scalar.toFloat_eq_ok (Scalar.abs_exact height)] at converted
    obtain ⟨u, valued, _, positive⟩ := value?_of_nearest? converted
    have u_nonneg := positive (abs_nonneg offset)
    rw [isZero_quotient_iff valued root some, abs_of_nonneg u_nonneg, abs_of_nonneg r_nonneg]
    constructor
    · intro small
      exact ⟨mt zero.mpr some, x, z, u, r, converted, square, valued, root, small⟩
    · rintro ⟨_, _, _, _, _, same_height, same_square, same_value, same_root, small⟩
      cases converted.symm.trans same_height
      cases square.symm.trans same_square
      cases valued.symm.trans same_value
      cases root.symm.trans same_root
      exact small

/-- The measured distance of a point from a line. -/
theorem Line.isZero_distanceToPoint {l : Line} (at_base : l.base.value? = some base)
    (at_direction : l.direction.value? = some direction) (point : v.value? = some p)
    (returns : (l.distanceToPoint v).result = .ok c) :
    c.isZero = true ↔ ¬Vanishes (direction.dot direction) ∧
      Vanishes ((direction.cross (p - base)).dot (direction.cross (p - base))) := by
  obtain ⟨gap, moved, gap_value⟩ := Vector.between_exact at_base point
  rw [distanceToPoint, moved] at returns
  simp only [Noted.result_bind, Noted.result_lift] at returns
  obtain ⟨_, same, area, found, length, measured, divided⟩ := returns
  cases same
  obtain ⟨x, area_square, rfl⟩ := (Vector.area_eq_ok at_direction gap_value).mp found
  obtain ⟨z, square, rfl⟩ := (Vector.length_eq_ok at_direction).mp measured
  obtain ⟨u, area_root, u_nonneg, area_zero, area_lower, _⟩ :=
    exists_value_sqrt (Point.dot_self_nonneg _) area_square
  obtain ⟨r, root, r_nonneg, zero, _, upper⟩ :=
    exists_value_sqrt (Point.dot_self_nonneg _) square
  rcases Scalar.divide_float root divided with ⟨none, rfl⟩ | ⟨some, _, converted, rfl⟩
  · simp [zero.mp none, Scalar.isZero, Scalar.eqv, Scalar.place?]
  · cases converted
    rw [isZero_quotient_iff area_root root some, abs_of_nonneg u_nonneg, abs_of_nonneg r_nonneg,
      ← area_zero]
    constructor
    · intro small
      refine ⟨mt zero.mpr some, ?_⟩
      by_contra proper
      have far : r * halfLeast < u := by
        calc
          r * halfLeast ≤ 2 ^ (512 : Int) * halfLeast :=
            mul_le_mul_of_nonneg_right upper halfLeast_nonneg
          _ = 2 ^ (512 + (leastExponent - 1)) := (zpow_add₀ two_ne_zero _ _).symm
          _ < 2 ^ (-537 : Int) := zpow_lt_zpow_right₀ one_lt_two (by decide)
          _ ≤ u := area_lower proper
      exact absurd small (not_le.mpr far)
    · rintro ⟨_, rfl⟩
      exact mul_nonneg r_nonneg halfLeast_nonneg

end

end SolidGeometry
