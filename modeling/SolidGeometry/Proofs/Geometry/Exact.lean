import SolidGeometry.Element.Plane
import SolidGeometry.Proofs.Geometry.Point

namespace SolidGeometry

namespace Noted

variable {ε α β : Type}

@[simp] theorem lift_ok (a : α) : (liftM (Except.ok a : Except ε α) : Noted ε α) = ⟨[], .ok a⟩ :=
  rfl

@[simp] theorem done_bind (a : α) (f : α → Noted ε β) : (⟨[], .ok a⟩ : Noted ε α) >>= f = f a :=
  bind_ok f rfl

end Noted

/-- The result is an exact number of the given value. -/
def Yields (m : Checked Scalar) (value : Rat) : Prop :=
  ∃ a, m = .ok a ∧ a.rational? = some value

namespace Scalar

variable {a b : Scalar} {p q : Rat}

theorem rational?_ofRat (q : Rat) : (ofRat q).rational? = some q := by
  unfold ofRat
  split
  · rename_i whole
    simp only [rational?, Option.some.injEq]
    exact (Rat.den_eq_one_iff q).mp whole
  · rfl

theorem place?_of_exact (exact : a.rational? = some q) : a.place? = some (.finite q) := by
  cases a <;> cases exact <;> rfl

theorem eqv_of_exact (left : a.rational? = some p) (right : b.rational? = some q) :
    a.eqv b = decide (p = q) := by
  rw [eqv, place?_of_exact left, place?_of_exact right]
  by_cases same : p = q
  · simp [same]
  · simp [same]

theorem isZero_of_exact (exact : a.rational? = some q) : a.isZero = decide (q = 0) :=
  eqv_of_exact exact rfl

theorem less_of_exact (left : a.rational? = some p) (right : b.rational? = some q) :
    a.less b = decide (p < q) := by
  rw [less, place?_of_exact left, place?_of_exact right]
  rfl

theorem combine_exact {onInt : Int → Int → Int} {onRat : Rat → Rat → Rat}
    {onFloat : Float → Float → Float}
    (agree : ∀ m n : Int, ((onInt m n : Int) : Rat) = onRat m n)
    (left : a.rational? = some p) (right : b.rational? = some q) :
    Yields (combine onInt onRat onFloat a b) (onRat p q) := by
  cases a <;> cases left <;> cases b <;> cases right
  · exact ⟨_, rfl, congrArg some (agree _ _)⟩
  · exact ⟨_, rfl, rfl⟩
  · exact ⟨_, rfl, rfl⟩
  · exact ⟨_, rfl, rfl⟩

theorem add_exact (left : a.rational? = some p) (right : b.rational? = some q) :
    Yields (a.add b) (p + q) :=
  combine_exact Int.cast_add left right

theorem sub_exact (left : a.rational? = some p) (right : b.rational? = some q) :
    Yields (a.sub b) (p - q) :=
  combine_exact Int.cast_sub left right

theorem mul_exact (left : a.rational? = some p) (right : b.rational? = some q) :
    Yields (a.mul b) (p * q) :=
  combine_exact Int.cast_mul left right

theorem neg_exact (exact : a.rational? = some q) : a.neg.rational? = some (-q) := by
  cases a <;> cases exact
  · simp [neg, rational?]
  · rfl

theorem abs_exact (exact : a.rational? = some q) : a.abs.rational? = some |q| := by
  cases a with
  | int n =>
    cases exact
    simp [abs, rational?]
  | ratio r =>
    cases exact
    simp only [abs, rational?, Option.some.injEq]
    split
    · rename_i negative
      exact (abs_of_neg negative).symm
    · rename_i positive
      exact (abs_of_nonneg (not_lt.mp positive)).symm
  | float x => cases exact
  | undefined => cases exact

/-- An exact quotient leaves no warning, unless the divisor is zero. -/
theorem divide_exact (left : a.rational? = some p) (right : b.rational? = some q)
    (nonzero : q ≠ 0) : ∃ c, a.divide b = ⟨[], .ok c⟩ ∧ c.rational? = some (p / q) := by
  have proper : b.isZero = false := by
    rw [isZero_of_exact right]
    exact decide_eq_false nonzero
  refine ⟨.ofRat (p / q), ?_, rational?_ofRat _⟩
  rw [divide, proper, left, right]
  rfl

end Scalar

section

variable {m n : Checked Scalar} {p q : Rat}

theorem Yields.add (left : Yields m p) (right : Yields n q) : Yields (m + n) (p + q) := by
  obtain ⟨a, rfl, left⟩ := left
  obtain ⟨b, rfl, right⟩ := right
  exact Scalar.add_exact left right

theorem Yields.sub (left : Yields m p) (right : Yields n q) : Yields (m - n) (p - q) := by
  obtain ⟨a, rfl, left⟩ := left
  obtain ⟨b, rfl, right⟩ := right
  exact Scalar.sub_exact left right

theorem yields_mul {a b : Scalar} (left : a.rational? = some p) (right : b.rational? = some q) :
    Yields ((a : Checked Scalar) * b) (p * q) :=
  Scalar.mul_exact left right

end

/-- The value of a vector of exact components. -/
def Vector.value? (v : Vector) : Option Point := do
  return ⟨← v.x.rational?, ← v.y.rational?, ← v.z.rational?⟩

theorem Vector.value?_eq_some {v : Vector} {p : Point} : v.value? = some p ↔
    v.x.rational? = some p.x ∧ v.y.rational? = some p.y ∧ v.z.rational? = some p.z := by
  obtain ⟨x, y, z⟩ := v
  obtain ⟨px, py, pz⟩ := p
  simp only [value?]
  cases x.rational? <;> cases y.rational? <;> cases z.rational? <;> simp

/-- The result is an exact vector of the given value. -/
def YieldsPoint (m : Checked Vector) (value : Point) : Prop :=
  ∃ v, m = .ok v ∧ v.value? = some value

theorem yieldsPoint_ofChecked {x y z : Checked Scalar} {p : Point} (first : Yields x p.x)
    (second : Yields y p.y) (third : Yields z p.z) : YieldsPoint (Vector.ofChecked x y z) p := by
  obtain ⟨a, rfl, first⟩ := first
  obtain ⟨b, rfl, second⟩ := second
  obtain ⟨c, rfl, third⟩ := third
  exact ⟨⟨a, b, c⟩, rfl, Vector.value?_eq_some.mpr ⟨first, second, third⟩⟩

namespace Vector

variable {u v : Vector} {p q : Point} {a : Scalar} {r : Rat}

theorem add_exact (left : u.value? = some p) (right : v.value? = some q) :
    YieldsPoint (u.add v) (p + q) := by
  obtain ⟨ux, uy, uz⟩ := value?_eq_some.mp left
  obtain ⟨vx, vy, vz⟩ := value?_eq_some.mp right
  apply yieldsPoint_ofChecked
  · exact Scalar.add_exact ux vx
  · exact Scalar.add_exact uy vy
  · exact Scalar.add_exact uz vz

theorem sub_exact (left : u.value? = some p) (right : v.value? = some q) :
    YieldsPoint (u.sub v) (p - q) := by
  obtain ⟨ux, uy, uz⟩ := value?_eq_some.mp left
  obtain ⟨vx, vy, vz⟩ := value?_eq_some.mp right
  apply yieldsPoint_ofChecked
  · exact Scalar.sub_exact ux vx
  · exact Scalar.sub_exact uy vy
  · exact Scalar.sub_exact uz vz

theorem between_exact (left : u.value? = some p) (right : v.value? = some q) :
    YieldsPoint (u.between v) (q - p) :=
  sub_exact right left

theorem scale_exact (vector : v.value? = some p) (factor : a.rational? = some r) :
    YieldsPoint (v.scale a) (p.scale r) := by
  obtain ⟨x, y, z⟩ := value?_eq_some.mp vector
  apply yieldsPoint_ofChecked
  · exact Scalar.mul_exact x factor
  · exact Scalar.mul_exact y factor
  · exact Scalar.mul_exact z factor

theorem dot_exact (left : u.value? = some p) (right : v.value? = some q) :
    Yields (u.dot v) (p.dot q) := by
  obtain ⟨ux, uy, uz⟩ := value?_eq_some.mp left
  obtain ⟨vx, vy, vz⟩ := value?_eq_some.mp right
  exact ((yields_mul ux vx).add (yields_mul uy vy)).add (yields_mul uz vz)

theorem cross_exact (left : u.value? = some p) (right : v.value? = some q) :
    YieldsPoint (u.cross v) (p.cross q) := by
  obtain ⟨ux, uy, uz⟩ := value?_eq_some.mp left
  obtain ⟨vx, vy, vz⟩ := value?_eq_some.mp right
  apply yieldsPoint_ofChecked
  · exact (yields_mul uy vz).sub (yields_mul uz vy)
  · exact (yields_mul uz vx).sub (yields_mul ux vz)
  · exact (yields_mul ux vy).sub (yields_mul uy vx)

theorem isZero_of_exact (exact : v.value? = some p) : v.isZero = decide (p = 0) := by
  obtain ⟨x, y, z⟩ := value?_eq_some.mp exact
  rw [isZero, Scalar.isZero_of_exact x, Scalar.isZero_of_exact y, Scalar.isZero_of_exact z]
  simp [Point.ext_iff, Bool.and_assoc]

end Vector

/-- The point of a span at exact parameters. -/
theorem Span.point_exact {S : Span} {base first second : Point} {a b : Scalar} {s t : Rat}
    (at_base : S.base.value? = some base) (at_first : S.first.value? = some first)
    (at_second : S.second.value? = some second) (first_parameter : a.rational? = some s)
    (second_parameter : b.rational? = some t) :
    YieldsPoint (S.point a b) (base + Point.combine first second s t) := by
  obtain ⟨u, along_first, u_value⟩ := Vector.scale_exact at_first first_parameter
  obtain ⟨v, along_second, v_value⟩ := Vector.scale_exact at_second second_parameter
  obtain ⟨w, moved, w_value⟩ := Vector.add_exact at_base u_value
  obtain ⟨r, reached, r_value⟩ := Vector.add_exact w_value v_value
  refine ⟨r, ?_, ?_⟩
  · simp only [point, along_first, moved, along_second, reached, bind, Except.bind]
  · rw [r_value, Point.add_combine]

end SolidGeometry
