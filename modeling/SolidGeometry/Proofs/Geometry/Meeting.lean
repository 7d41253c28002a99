import SolidGeometry.Operation.Methods
import SolidGeometry.Proofs.Geometry.Depiction
import SolidGeometry.Proofs.Geometry.Domains

namespace SolidGeometry

/-- An element of exact numbers by its equation, and its figure. A line or a plane may lack its
direction. -/
inductive Element.Shows : Element → Figure → Prop
  | vector {v : Vector} {p : Point} (value : v.value? = some p) : Shows (.vector v) (.point p)
  | line {l : Line} {base direction : Point} (denotes : l.Denotes base direction) :
    Shows (.line l) (.line base direction)
  | plane {P : Plane} {normal : Point} {offset : Rat} (denotes : P.Denotes normal offset) :
    Shows (.plane P) (.plane normal offset)

theorem Scalar.same_of_exact {a b : Scalar} {q : Rat} (left : a.rational? = some q)
    (right : b.rational? = some q) : a.same b = true := by
  have equal : a.eqv b = true := by
    rw [eqv_of_exact left right, decide_eq_true rfl]
  cases a with
  | undefined => cases left
  | _ => exact equal

theorem Vector.same_of_exact {u v : Vector} {p : Point} (first : u.value? = some p)
    (second : v.value? = some p) : u.same v = true := by
  obtain ⟨ux, uy, uz⟩ := value?_eq_some.mp first
  obtain ⟨vx, vy, vz⟩ := value?_eq_some.mp second
  simp only [same, Scalar.same_of_exact ux vx, Scalar.same_of_exact uy vy,
    Scalar.same_of_exact uz vz, Bool.and_self]

/-- Elements with one figure are numerically equal. -/
theorem Element.Shows.same {a b : Element} {F : Figure} (first : a.Shows F) (second : b.Shows F) :
    a.same b = true := by
  cases first with
  | vector u =>
    cases second with
    | vector v => exact Vector.same_of_exact u v
  | line l =>
    cases second with
    | line k =>
      simp only [Element.same, Vector.same_of_exact l.base k.base,
        Vector.same_of_exact l.direction k.direction, Bool.and_self]
  | plane P =>
    cases second with
    | plane Q =>
      simp only [Element.same, Vector.same_of_exact P.normal Q.normal,
        Scalar.same_of_exact P.offset Q.offset, Bool.and_self]

/-- A value that is an element with a given figure, or none where there is no figure. -/
inductive Value.Shows : Value → Option Figure → Prop
  | none : Shows .none Option.none
  | element {e : Element} {F : Figure} (shows : e.Shows F) : Shows (.element e) (some F)

theorem Value.Shows.eqv {v w : Value} {F : Option Figure} (first : v.Shows F) (second : w.Shows F) :
    v.eqv w = true := by
  cases first with
  | none =>
    cases second with
    | none => rfl
  | element a =>
    cases second with
    | element b => exact a.same b

theorem Element.Shows.value {o : Option Element} {F : Option Figure}
    (shows : Option.Rel Element.Shows o F) : (o.elim .none .element : Value).Shows F := by
  cases shows with
  | none => exact .none
  | some shown => exact .element shown

theorem Element.Shows.isSome_iff {o : Option Element} {F : Option Figure}
    (shows : Option.Rel Element.Shows o F) : o.isSome = true ↔ F.isSome = true := by
  cases shows <;> rfl

/-- The first axis on which a vector has a component. -/
def Point.pivot (p : Point) : Axis := if p.x ≠ 0 then .x else if p.y ≠ 0 then .y else .z

namespace Figure

/-- The point at which two lines of different directions cross, if they do. -/
def crossing (b r c s : Point) : Option Figure :=
  if (c - b).dot (r.cross s) = 0 then
    some (point (b + r.scale (((c - b).cross s).dot (r.cross s) / (r.cross s).dot (r.cross s))))
  else none

theorem crossing_isSome (b r c s : Point) :
    (crossing b r c s).isSome = true ↔ (c - b).dot (r.cross s) = 0 := by
  unfold crossing
  split_ifs with coplanar
  · exact iff_of_true rfl coplanar
  · exact iff_of_false Bool.false_ne_true coplanar

/-- What a line and a plane have in common: a point, the line itself or nothing. -/
def piercing (b r n : Point) (d : Rat) : Option Figure :=
  if n.dot r = 0 then if n.dot b + d = 0 then some (line b r) else none
  else some (point (b + r.scale (-(n.dot b + d) / n.dot r)))

theorem piercing_isSome (b r n : Point) (d : Rat) :
    (piercing b r n d).isSome = true ↔ n.dot r ≠ 0 ∨ n.dot b + d = 0 := by
  unfold piercing
  split_ifs with parallel contained
  · exact iff_of_true rfl (.inr contained)
  · exact iff_of_false Bool.false_ne_true (not_or.mpr ⟨not_not.mpr parallel, contained⟩)
  · exact iff_of_true rfl (.inl parallel)

/-- The line on two planes of different directions. On the first axis on which it can, it is
measured by that axis and begins at zero. -/
def seam (m : Point) (c : Rat) (n : Point) (d : Rat) : Figure :=
  let r := m.cross n
  let i := r.pivot
  let j := i.next
  let k := j.next
  let coordinate (a : Axis) : Rat :=
    if a = j then (m.at k * d - n.at k * c) / r.at i
    else if a = k then (n.at j * c - m.at j * d) / r.at i else 0
  line ⟨coordinate .x, coordinate .y, coordinate .z⟩ (r.scale (r.at i)⁻¹)

end Figure

section

variable {b c r s m n : Point} {d e : Rat} {l k : Line} {P Q : Plane}

/-- Lines of different directions have an intersection where they cross. -/
theorem Line.intersection_exact (first : l.Denotes b r) (second : k.Denotes c s)
    (independent : r.cross s ≠ 0) :
    ∃ o, l.intersection k = ⟨[], .ok o⟩ ∧
      Option.Rel Element.Shows o (Figure.crossing b r c s) := by
  obtain ⟨gap, moved, gap_value⟩ := Vector.between_exact first.base second.base
  obtain ⟨normal, crossed, normal_value⟩ := Vector.cross_exact first.direction second.direction
  obtain ⟨volume, multiplied, volume_value⟩ := Vector.dot_exact gap_value normal_value
  have proper := Vector.isZero_of_exact normal_value
  have flat := Scalar.isZero_of_exact volume_value
  rw [intersection, moved, crossed, Figure.crossing]
  simp only [Noted.lift_ok, Noted.done_bind, proper, independent, decide_false, multiplied, flat]
  by_cases coplanar : (c - b).dot (r.cross s) = 0
  · obtain ⟨area, crossed_gap, area_value⟩ := Vector.cross_exact gap_value second.direction
    obtain ⟨above, multiplied_area, above_value⟩ := Vector.dot_exact area_value normal_value
    obtain ⟨under, squared, under_value⟩ := Vector.dot_exact normal_value normal_value
    obtain ⟨t, divided, t_value⟩ :=
      Scalar.divide_exact above_value under_value (Point.dot_self_ne_zero independent)
    obtain ⟨w, reached, w_value⟩ := first.reaches_iff.mpr rfl t t_value
    refine ⟨some (.vector w), ?_, ?_⟩
    · simp [coplanar, crossed_gap, multiplied_area, squared, divided, reached]
      rfl
    · rw [if_pos coplanar]
      exact .some (.vector w_value)
  · refine ⟨none, by simp [coplanar]; rfl, ?_⟩
    rw [if_neg coplanar]
    exact .none

/-- The common points of a line and a plane. -/
theorem Plane.intersectionWithLine_exact (first : l.Denotes b r) (second : P.Denotes n d) :
    ∃ o, P.intersectionWithLine l = ⟨[], .ok o⟩ ∧
      Option.Rel Element.Shows o (Figure.piercing b r n d) := by
  obtain ⟨slope, inclined, slope_value⟩ := Vector.dot_exact second.normal first.direction
  obtain ⟨product, multiplied, product_value⟩ := Vector.dot_exact second.normal first.base
  obtain ⟨height, added, height_value⟩ := Scalar.add_exact product_value second.offset
  have flat := Scalar.isZero_of_exact slope_value
  have level := Scalar.isZero_of_exact (Scalar.neg_exact height_value)
  rw [intersectionWithLine, inclined, multiplied, Figure.piercing]
  simp only [Noted.lift_ok, Noted.done_bind, added, flat, level, neg_eq_zero]
  by_cases parallel : n.dot r = 0
  · rw [if_pos parallel]
    by_cases contained : n.dot b + d = 0
    · refine ⟨some (.line l), by simp [parallel, contained]; rfl, ?_⟩
      rw [if_pos contained]
      exact .some (.line first)
    · refine ⟨none, by simp [parallel, contained]; rfl, ?_⟩
      rw [if_neg contained]
      exact .none
  · obtain ⟨t, divided, t_value⟩ :=
      Scalar.divide_exact (Scalar.neg_exact height_value) slope_value parallel
    obtain ⟨w, reached, w_value⟩ := first.reaches_iff.mpr rfl t t_value
    refine ⟨some (.vector w), ?_, ?_⟩
    · simp [parallel, divided, reached]
      rfl
    · rw [if_neg parallel]
      exact .some (.vector w_value)

theorem Vector.divide_exact {v : Vector} {p : Point} {a : Scalar} {q : Rat}
    (vector : v.value? = some p) (divisor : a.rational? = some q) (nonzero : q ≠ 0) :
    ∃ w, v.divide a = ⟨[], .ok w⟩ ∧ w.value? = some (p.scale q⁻¹) := by
  obtain ⟨at_x, at_y, at_z⟩ := value?_eq_some.mp vector
  obtain ⟨x, first, x_value⟩ := Scalar.divide_exact at_x divisor nonzero
  obtain ⟨y, second, y_value⟩ := Scalar.divide_exact at_y divisor nonzero
  obtain ⟨z, third, z_value⟩ := Scalar.divide_exact at_z divisor nonzero
  refine ⟨⟨x, y, z⟩, ?_, value?_eq_some.mpr ⟨x_value, y_value, z_value⟩⟩
  simp only [divide, first, second, third, Noted.done_bind]
  rfl

theorem Vector.pivot_exact {v : Vector} {p : Point} (exact : v.value? = some p)
    (nonzero : p ≠ 0) : v.pivot = .ok p.pivot ∧ p.at p.pivot ≠ 0 := by
  obtain ⟨x, y, z⟩ := value?_eq_some.mp exact
  unfold pivot Point.pivot
  simp only [Axis.all, List.find?_cons, Vector.at, Scalar.isZero_of_exact x,
    Scalar.isZero_of_exact y, Scalar.isZero_of_exact z]
  by_cases at_x : p.x = 0
  · by_cases at_y : p.y = 0
    · have at_z : p.z ≠ 0 := fun at_z => nonzero (Point.ext at_x at_y at_z)
      simp [at_x, at_y, at_z, Point.at]
    · simp [at_x, at_y, Point.at]
  · simp [at_x, Point.at]

/-- Planes of different directions have the line in common on which they meet. -/
theorem Plane.intersection_exact (first : P.Denotes m d) (second : Q.Denotes n e)
    (independent : m.cross n ≠ 0) :
    ∃ k, P.intersection Q = ⟨[], .ok (some (.line k))⟩ ∧
      (Element.line k).Shows (Figure.seam m d n e) := by
  obtain ⟨v, crossed, v_value⟩ := Vector.cross_exact first.normal second.normal
  have skew : v.isZero = false := by
    rw [Vector.isZero_of_exact v_value, decide_eq_false independent]
  obtain ⟨found, proper⟩ := Vector.pivot_exact v_value independent
  let pivot := (m.cross n).pivot
  have at_pivot := Vector.at_exact v_value pivot
  have m_at := Vector.at_exact first.normal
  have n_at := Vector.at_exact second.normal
  obtain ⟨f, f_product, f_value⟩ := Scalar.mul_exact (m_at pivot.next.next) second.offset
  obtain ⟨g, g_product, g_value⟩ := Scalar.mul_exact (n_at pivot.next.next) first.offset
  obtain ⟨h, h_product, h_value⟩ := Scalar.mul_exact (n_at pivot.next) first.offset
  obtain ⟨i, i_product, i_value⟩ := Scalar.mul_exact (m_at pivot.next) second.offset
  obtain ⟨fg, fg_difference, fg_value⟩ := Scalar.sub_exact f_value g_value
  obtain ⟨hi, hi_difference, hi_value⟩ := Scalar.sub_exact h_value i_value
  obtain ⟨j, fg_divided, j_value⟩ := Scalar.divide_exact fg_value at_pivot proper
  obtain ⟨k, hi_divided, k_value⟩ := Scalar.divide_exact hi_value at_pivot proper
  obtain ⟨w, divided, w_value⟩ := Vector.divide_exact v_value at_pivot proper
  let base := Vector.ofAxes fun i =>
    if i = pivot.next then j else if i = pivot.next.next then k else 0
  refine ⟨⟨base, w⟩, ?_, .line ⟨?_, w_value⟩⟩
  · have met : P.meet Q v pivot = ⟨[], .ok ⟨base, w⟩⟩ := by
      unfold meet
      simp only [f_product, g_product, h_product, i_product, fg_difference, hi_difference,
        fg_divided, hi_divided, divided, Noted.lift_ok, Noted.done_bind]
      rfl
    rw [intersection, crossed]
    simp only [skew, found, Noted.lift_ok, Noted.done_bind]
    rw [met]
    rfl
  · have zero : (0 : Scalar).rational? = some 0 := rfl
    refine Vector.value?_eq_some.mpr ⟨?_, ?_, ?_⟩ <;>
      simp only [base, Vector.ofAxes] <;> split_ifs <;> assumption

end

end SolidGeometry
