import SolidGeometry.Proofs.Geometry.Measured

namespace SolidGeometry
open Number

/-- The angle of two exact vectors by their scalar product and the product of their squares. -/
def exactAngle? (d squares : Rat) : Option Float :=
  if squares = 0 then some notANumber
  else if d = 0 then some 90.0
  else if d * d = squares then some (if 0 < d then 0.0 else 180.0)
  else do
    let x ← nearest? d
    let y ← nearest? squares
    if y.sqrt == 0 then none
    else if isNaN (x / y.sqrt) then some notANumber
    else some (degrees (clampCosine (x / y.sqrt)).acos)

section

variable {u v : Vector} {p q : Point} {a : Float}

theorem Vector.angle_eq_ok (first : u.value? = some p) (second : v.value? = some q) :
    u.angle v = .ok a ↔ exactAngle? (p.dot q) (p.dot p * q.dot q) = some a := by
  obtain ⟨d, product, d_value⟩ := dot_exact first second
  obtain ⟨l, left, l_value⟩ := dot_exact first first
  obtain ⟨r, right, r_value⟩ := dot_exact second second
  obtain ⟨s, squares, s_value⟩ := Scalar.mul_exact l_value r_value
  obtain ⟨e, square, e_value⟩ := Scalar.mul_exact d_value d_value
  have zero : (0 : Scalar).rational? = some 0 := rfl
  unfold angle exactAngle?
  simp only [product, left, right, squares, square, bind, Except.bind, pure, Except.pure]
  simp only [Scalar.isZero_of_exact s_value, Scalar.isZero_of_exact d_value,
    Scalar.eqv_of_exact e_value s_value, Scalar.less_of_exact zero d_value, decide_eq_true_iff]
  split
  · simp
  split
  · simp
  split
  · simp
  rw [Scalar.sqrt_eq (Scalar.notNegative_of_rational s_value
    (mul_nonneg (Point.dot_self_nonneg p) (Point.dot_self_nonneg q)))]
  unfold Scalar.floatQuotient
  rcases Scalar.toFloat_exact s_value with ⟨y, s_converts, s_found⟩ | ⟨e, s_fails, s_missing⟩
  · rcases Scalar.toFloat_exact d_value with ⟨x, d_converts, d_found⟩ | ⟨e, d_fails, d_missing⟩
    · have kept : (Scalar.float y.sqrt).toFloat = .ok y.sqrt := rfl
      simp only [s_converts, s_found, d_converts, d_found, kept, bind, Except.bind, Option.bind,
        pure, Except.pure]
      by_cases divisor : (y.sqrt == 0) = true
      · simp [divisor]
      · rw [if_neg divisor, if_neg divisor]
        by_cases undefined : isNaN (x / y.sqrt) = true
        · simp [undefined]
        · simp [undefined, arcCosine_clampCosine]
    · simp [s_converts, s_found, d_fails, d_missing, bind, Except.bind]
  · rcases Scalar.toFloat_exact d_value with ⟨x, d_converts, d_found⟩ | ⟨_, d_fails, d_missing⟩
    · simp [s_fails, s_missing, d_found, bind, Except.bind]
    · simp [s_fails, d_missing, bind, Except.bind]

/-- The angle depends on the values of the vectors alone. -/
theorem Vector.angle_congr {w r : Vector} (first : u.value? = some p) (second : v.value? = some q)
    (third : w.value? = some p) (fourth : r.value? = some q) :
    u.angle v = .ok a ↔ w.angle r = .ok a :=
  (angle_eq_ok first second).trans (angle_eq_ok third fourth).symm

/-- The identity of Lagrange. -/
theorem Point.dot_self_mul_dot_self (p q : Point) :
    p.dot p * q.dot q = p.dot q * p.dot q + (p.cross q).dot (p.cross q) := by
  simp only [dot, cross]
  ring

theorem exactAngle?_right {squares : Rat} (proper : squares ≠ 0) :
    exactAngle? 0 squares = some 90.0 := by
  simp [exactAngle?, proper]

/-- Parallel vectors have the angle of equal or of opposite directions. -/
theorem exactAngle?_parallel (p_nonzero : p ≠ 0) (q_nonzero : q ≠ 0) (parallel : p.cross q = 0) :
    exactAngle? (p.dot q) (p.dot p * q.dot q) = some (if 0 < p.dot q then 0.0 else 180.0) := by
  have p_square := Point.dot_self_ne_zero p_nonzero
  have q_square := Point.dot_self_ne_zero q_nonzero
  have proper : p.dot p * q.dot q ≠ 0 := mul_ne_zero p_square q_square
  have square : p.dot q * p.dot q = p.dot p * q.dot q := by
    rw [Point.dot_self_mul_dot_self, parallel]
    simp [Point.dot]
  have some : p.dot q ≠ 0 := by
    intro none
    rw [none, mul_zero] at square
    exact proper square.symm
  rw [exactAngle?, if_neg proper, if_neg some, if_pos square]

end

/-- The vector of an exact direction. -/
def Point.toVector (p : Point) : Vector := ⟨.ratio p.x, .ratio p.y, .ratio p.z⟩

theorem Point.value?_toVector (p : Point) : p.toVector.value? = some p := rfl

/-- The angle of a direction with the plane of a normal is taken for none. -/
def TakenForParallel (normal direction : Point) : Prop :=
  ∃ a, normal.toVector.angleToPlane direction.toVector = .ok a ∧ isParallelAngle a = true

/-- The angle of the planes of two normals is taken for none. -/
def TakenForAligned (m n : Point) : Prop :=
  ∃ a, m.toVector.angleOfNormals n.toVector = .ok a ∧ isParallelAngle a = true

section

variable {u v : Vector} {m n : Point} {a : Float}

theorem Vector.angleToPlane_congr (first : u.value? = some m) (second : v.value? = some n) :
    u.angleToPlane v = .ok a ↔ m.toVector.angleToPlane n.toVector = .ok a := by
  unfold angleToPlane
  simp only [Checked.bind_eq_ok]
  simp only [angle_congr first second m.value?_toVector n.value?_toVector]

theorem Vector.angleOfNormals_congr (first : u.value? = some m) (second : v.value? = some n) :
    u.angleOfNormals v = .ok a ↔ m.toVector.angleOfNormals n.toVector = .ok a := by
  unfold angleOfNormals
  simp only [Checked.bind_eq_ok]
  simp only [angle_congr first second m.value?_toVector n.value?_toVector]

/-- A direction perpendicular to the normal is taken for parallel to the plane. -/
theorem takenForParallel_of_dot (m_nonzero : m ≠ 0) (n_nonzero : n ≠ 0) (flat : m.dot n = 0) :
    TakenForParallel m n := by
  have proper := mul_ne_zero (Point.dot_self_ne_zero m_nonzero) (Point.dot_self_ne_zero n_nonzero)
  have right := exactAngle?_right proper
  rw [← flat, ← Vector.angle_eq_ok m.value?_toVector n.value?_toVector] at right
  refine ⟨_, Checked.bind_eq_ok.mpr ⟨_, right, rfl⟩, ?_⟩
  decide

/-- Planes of parallel normals are taken for aligned. -/
theorem takenForAligned_of_cross (m_nonzero : m ≠ 0) (n_nonzero : n ≠ 0)
    (parallel : m.cross n = 0) : TakenForAligned m n := by
  have straight := exactAngle?_parallel m_nonzero n_nonzero parallel
  rw [← Vector.angle_eq_ok m.value?_toVector n.value?_toVector] at straight
  refine ⟨_, Checked.bind_eq_ok.mpr ⟨_, straight, rfl⟩, ?_⟩
  split
  · decide
  · decide

end

end SolidGeometry
