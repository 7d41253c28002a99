import SolidGeometry.Proofs.Geometry.Exact

namespace SolidGeometry

/-- The exact points that solve the equation of a plane. -/
def Plane.Contains (P : Plane) (p : Point) : Prop :=
  ∃ normal offset, P.normal.value? = some normal ∧ P.offset.rational? = some offset ∧
    normal.dot p + offset = 0

/-- The exact point of a span at a pair of parameters, whatever exact numbers stand for them. -/
def Span.Reaches (S : Span) (s t : Rat) (p : Point) : Prop :=
  ∀ a b : Scalar, a.rational? = some s → b.rational? = some t → YieldsPoint (S.point a b) p

def Span.Contains (S : Span) (p : Point) : Prop := ∃ s t, S.Reaches s t p

/-- A plane of exact coefficients and their values. -/
structure Plane.Denotes (P : Plane) (normal : Point) (offset : Rat) : Prop where
  normal : P.normal.value? = some normal
  offset : P.offset.rational? = some offset

/-- A span of exact vectors and their values. -/
structure Span.Denotes (S : Span) (base first second : Point) : Prop where
  base : S.base.value? = some base
  first : S.first.value? = some first
  second : S.second.value? = some second

section

variable {P : Plane} {S : Span} {normal base first second p : Point} {offset s t : Rat}

theorem Plane.Denotes.contains_iff (denotes : P.Denotes normal offset) :
    P.Contains p ↔ normal.dot p + offset = 0 := by
  constructor
  · rintro ⟨n, d, at_normal, at_offset, solved⟩
    cases denotes.normal.symm.trans at_normal
    cases denotes.offset.symm.trans at_offset
    exact solved
  · intro solved
    exact ⟨normal, offset, denotes.normal, denotes.offset, solved⟩

theorem yieldsPoint_unique {m : Checked Vector} {p q : Point} (first : YieldsPoint m p)
    (second : YieldsPoint m q) : p = q := by
  obtain ⟨u, rfl, u_value⟩ := first
  obtain ⟨v, same, v_value⟩ := second
  cases same
  cases u_value.symm.trans v_value
  rfl

theorem Span.Denotes.reaches_iff (denotes : S.Denotes base first second) :
    S.Reaches s t p ↔ p = base + Point.combine first second s t := by
  have reached : S.Reaches s t (base + Point.combine first second s t) :=
    fun a b at_s at_t => point_exact denotes.base denotes.first denotes.second at_s at_t
  constructor
  · intro reaches
    exact yieldsPoint_unique (reaches (.ratio s) (.ratio t) rfl rfl)
      (reached (.ratio s) (.ratio t) rfl rfl)
  · rintro rfl
    exact reached

/-- The equation of a span. -/
theorem Span.Denotes.toPlane (denotes : S.Denotes base first second) :
    ∃ P, S.toPlane = .ok P ∧ P.Denotes (first.cross second) (-base.dot (first.cross second)) := by
  obtain ⟨n, crossed, n_value⟩ := Vector.cross_exact denotes.first denotes.second
  obtain ⟨d, measured, d_value⟩ := Vector.dot_exact denotes.base n_value
  refine ⟨⟨n, d.neg⟩, ?_, n_value, Scalar.neg_exact d_value⟩
  simp only [Span.toPlane, crossed, measured, bind, Except.bind]
  rfl

/-- A point of the plane `normal · p + offset = 0` and two directions that span it. -/
structure Frames (normal : Point) (offset : Rat) (base first second : Point) : Prop where
  onPlane : normal.dot base + offset = 0
  perpendicular : ∃ factor ≠ 0, first.cross second = normal.scale factor

namespace Frames

variable (frames : Frames normal offset base first second) (nonzero : normal ≠ 0)

include frames

theorem dot_combine (s t : Rat) : normal.dot (Point.combine first second s t) = 0 := by
  obtain ⟨factor, proper, crossed⟩ := frames.perpendicular
  have flat := Point.cross_dot_combine first second s t
  rw [crossed, Point.scale_dot] at flat
  exact (mul_eq_zero.mp flat).resolve_right proper

theorem contains_combine (s t : Rat) :
    normal.dot (base + Point.combine first second s t) + offset = 0 := by
  rw [Point.dot_add, frames.dot_combine, add_zero]
  exact frames.onPlane

include nonzero

theorem independent : first.cross second ≠ 0 := by
  obtain ⟨factor, proper, crossed⟩ := frames.perpendicular
  rw [crossed]
  intro vanishes
  apply Point.dot_self_ne_zero nonzero
  have squared := congrArg normal.dot vanishes
  rw [Point.dot_scale] at squared
  simpa [Point.dot, proper] using squared

/-- Every point of the plane has one pair of parameters. -/
theorem existsUnique (solved : normal.dot p + offset = 0) :
    ∃! parameters : Rat × Rat,
      p = base + Point.combine first second parameters.1 parameters.2 := by
  have flat : (first.cross second).dot (p - base) = 0 := by
    obtain ⟨factor, _, crossed⟩ := frames.perpendicular
    have same : normal.dot (p - base) = 0 := by
      rw [Point.dot_sub]
      linarith [frames.onPlane]
    rw [crossed, Point.scale_dot, same, zero_mul]
  have unique := Point.existsUnique_combine (frames.independent nonzero) flat
  simpa only [Point.sub_eq_iff] using unique

end Frames

/-- The directions between the intercepts of a plane span it. The factor has the sign of the product
of the coefficients. -/
theorem cross_of_intercepts (x_nonzero : normal.x ≠ 0) (y_nonzero : normal.y ≠ 0)
    (z_nonzero : normal.z ≠ 0) :
    (⟨0, -offset / normal.y, 0⟩ - ⟨-offset / normal.x, 0, 0⟩ : Point).cross
        (⟨0, 0, -offset / normal.z⟩ - ⟨-offset / normal.x, 0, 0⟩) =
      normal.scale (offset * offset / (normal.x * normal.y * normal.z)) := by
  ext <;> simp only [Point.cross, Point.scale, Point.sub_x, Point.sub_y, Point.sub_z] <;>
    field_simp <;> ring

/-- The intercepts of a plane that meets all axes off the origin frame it. -/
theorem frames_of_intercepts (offset_nonzero : offset ≠ 0) (x_nonzero : normal.x ≠ 0)
    (y_nonzero : normal.y ≠ 0) (z_nonzero : normal.z ≠ 0) :
    Frames normal offset ⟨-offset / normal.x, 0, 0⟩
      (⟨0, -offset / normal.y, 0⟩ - ⟨-offset / normal.x, 0, 0⟩)
      (⟨0, 0, -offset / normal.z⟩ - ⟨-offset / normal.x, 0, 0⟩) where
  onPlane := by
    simp only [Point.dot]
    field_simp
    ring
  perpendicular := ⟨_, by positivity, cross_of_intercepts x_nonzero y_nonzero z_nonzero⟩

theorem Plane.Denotes.intercepts (denotes : P.Denotes normal offset) (x_nonzero : normal.x ≠ 0)
    (y_nonzero : normal.y ≠ 0) (z_nonzero : normal.z ≠ 0) :
    ∃ x y z : Scalar, P.intercepts = ⟨[], .ok (⟨x, 0, 0⟩, ⟨0, y, 0⟩, ⟨0, 0, z⟩)⟩ ∧
      x.rational? = some (-offset / normal.x) ∧ y.rational? = some (-offset / normal.y) ∧
        z.rational? = some (-offset / normal.z) := by
  obtain ⟨x, y, z⟩ := Vector.value?_eq_some.mp denotes.normal
  have above := Scalar.neg_exact denotes.offset
  obtain ⟨a, at_x, a_value⟩ := Scalar.divide_exact above x x_nonzero
  obtain ⟨b, at_y, b_value⟩ := Scalar.divide_exact above y y_nonzero
  obtain ⟨c, at_z, c_value⟩ := Scalar.divide_exact above z z_nonzero
  refine ⟨a, b, c, ?_, a_value, b_value, c_value⟩
  unfold Plane.intercepts
  rw [at_x, at_y, at_z]
  rfl

def Point.at (p : Point) : Axis → Rat
  | .x => p.x
  | .y => p.y
  | .z => p.z

def Point.unit (axis : Axis) : Point :=
  ⟨if Axis.x = axis then 1 else 0, if Axis.y = axis then 1 else 0, if Axis.z = axis then 1 else 0⟩

/-- A vector is not parallel to the axis of its least component. -/
theorem Point.cross_unit_ne_zero (nonzero : normal ≠ 0) {axis : Axis}
    (least : ∀ i, |normal.at axis| ≤ |normal.at i|) : normal.cross (unit axis) ≠ 0 := by
  intro parallel
  apply nonzero
  have coordinates := Point.ext_iff.mp parallel
  have vanishes : ∀ i, normal.at i = 0 → normal.at axis = 0 := by
    intro i none
    have bound := least i
    rw [none, abs_zero] at bound
    exact abs_nonpos_iff.mp bound
  cases axis with
  | x =>
    have y : normal.y = 0 := by simpa [cross, unit] using coordinates.2.2
    have z : normal.z = 0 := by simpa [cross, unit] using coordinates.2.1
    exact Point.ext (vanishes .y y) y z
  | y =>
    have x : normal.x = 0 := by simpa [cross, unit] using coordinates.2.2
    have z : normal.z = 0 := by simpa [cross, unit] using coordinates.1
    exact Point.ext x (vanishes .x x) z
  | z =>
    have x : normal.x = 0 := by simpa [cross, unit] using coordinates.2.1
    have y : normal.y = 0 := by simpa [cross, unit] using coordinates.1
    exact Point.ext x y (vanishes .x x)

theorem Vector.at_exact {v : Vector} (exact : v.value? = some p) (axis : Axis) :
    (v.at axis).rational? = some (p.at axis) := by
  obtain ⟨x, y, z⟩ := value?_eq_some.mp exact
  cases axis with
  | x => exact x
  | y => exact y
  | z => exact z

theorem Vector.leastAxis_le {v : Vector} (exact : v.value? = some p) (axis : Axis) :
    |p.at v.leastAxis| ≤ |p.at axis| := by
  have less : ∀ i j, (v.at i).abs.less (v.at j).abs = decide (|p.at i| < |p.at j|) := fun i j =>
    Scalar.less_of_exact (Scalar.abs_exact (at_exact exact i)) (Scalar.abs_exact (at_exact exact j))
  simp only [leastAxis, List.foldl_cons, List.foldl_nil, less, decide_eq_true_eq]
  by_cases second : |p.at .y| < |p.at .x|
  · rw [if_pos second]
    by_cases third : |p.at .z| < |p.at .y|
    · rw [if_pos third]
      cases axis <;> linarith
    · rw [if_neg third]
      cases axis <;> linarith
  · rw [if_neg second]
    by_cases third : |p.at .z| < |p.at .x|
    · rw [if_pos third]
      cases axis <;> linarith
    · rw [if_neg third]
      cases axis <;> linarith

/-- A direction in a plane and the one across it span the plane, turned as its normal is. -/
theorem cross_of_foot (normal helper : Point) :
    (normal.cross helper).cross (normal.cross (normal.cross helper)) =
      normal.scale ((normal.cross helper).dot (normal.cross helper)) := by
  rw [Point.cross_cross, Point.cross_dot_left]
  ext <;> simp [Point.scale]

/-- The foot of the origin and two directions perpendicular to the normal frame a plane. -/
theorem frames_of_foot (nonzero : normal ≠ 0) {helper : Point}
    (independent : normal.cross helper ≠ 0) :
    Frames normal offset (normal.scale (-offset / normal.dot normal)) (normal.cross helper)
      (normal.cross (normal.cross helper)) where
  onPlane := by
    have positive := Point.dot_self_ne_zero nonzero
    rw [Point.dot_scale]
    field_simp
    ring
  perpendicular := ⟨_, Point.dot_self_ne_zero independent, cross_of_foot normal helper⟩

/-- A plane meets all three axes, each in a point of its own. -/
structure Intercepted (normal : Point) (offset : Rat) : Prop where
  off_origin : offset ≠ 0
  cuts_x : normal.x ≠ 0
  cuts_y : normal.y ≠ 0
  cuts_z : normal.z ≠ 0

/-- Where a plane is converted by its intercepts. -/
theorem Plane.Denotes.cuts_iff (denotes : P.Denotes normal offset) :
    (!P.offset.isZero && P.normal.toList.all (!·.isZero)) = true ↔ Intercepted normal offset := by
  obtain ⟨x, y, z⟩ := Vector.value?_eq_some.mp denotes.normal
  have nonzero : (!P.offset.isZero && P.normal.toList.all (!·.isZero)) = true ↔
      offset ≠ 0 ∧ normal.x ≠ 0 ∧ normal.y ≠ 0 ∧ normal.z ≠ 0 := by
    simp [Vector.toList, Scalar.isZero_of_exact denotes.offset, Scalar.isZero_of_exact x,
      Scalar.isZero_of_exact y, Scalar.isZero_of_exact z]
  rw [nonzero]
  constructor
  · rintro ⟨off_origin, cuts_x, cuts_y, cuts_z⟩
    exact ⟨off_origin, cuts_x, cuts_y, cuts_z⟩
  · intro cuts
    exact ⟨cuts.off_origin, cuts.cuts_x, cuts.cuts_y, cuts.cuts_z⟩

/-- A plane with three intercepts is converted to the directions between them. -/
theorem Plane.Denotes.toSpan_of_intercepts (denotes : P.Denotes normal offset)
    (cuts : Intercepted normal offset) :
    ∃ S, P.toSpan = ⟨[], .ok S⟩ ∧ S.Denotes ⟨-offset / normal.x, 0, 0⟩
      (⟨0, -offset / normal.y, 0⟩ - ⟨-offset / normal.x, 0, 0⟩)
      (⟨0, 0, -offset / normal.z⟩ - ⟨-offset / normal.x, 0, 0⟩) := by
  obtain ⟨a, b, c, cut, a_value, b_value, c_value⟩ :=
    denotes.intercepts cuts.cuts_x cuts.cuts_y cuts.cuts_z
  have a_point : (⟨a, 0, 0⟩ : Vector).value? = some ⟨-offset / normal.x, 0, 0⟩ :=
    Vector.value?_eq_some.mpr ⟨a_value, rfl, rfl⟩
  have b_point : (⟨0, b, 0⟩ : Vector).value? = some ⟨0, -offset / normal.y, 0⟩ :=
    Vector.value?_eq_some.mpr ⟨rfl, b_value, rfl⟩
  have c_point : (⟨0, 0, c⟩ : Vector).value? = some ⟨0, 0, -offset / normal.z⟩ :=
    Vector.value?_eq_some.mpr ⟨rfl, rfl, c_value⟩
  obtain ⟨f, to_y, f_value⟩ := Vector.between_exact a_point b_point
  obtain ⟨g, to_z, g_value⟩ := Vector.between_exact a_point c_point
  refine ⟨⟨⟨a, 0, 0⟩, f, g⟩, ?_, a_point, f_value, g_value⟩
  unfold Plane.toSpan
  dsimp only
  rw [if_pos (denotes.cuts_iff.mpr cuts)]
  simp only [cut, to_y, to_z, Noted.lift_ok, Noted.done_bind]
  rfl

/-- A plane without three intercepts is converted to the foot of the origin and two directions
perpendicular to the normal. -/
theorem Plane.Denotes.toSpan_of_foot (denotes : P.Denotes normal offset) (nonzero : normal ≠ 0)
    (uncut : ¬Intercepted normal offset) :
    ∃ S axis, P.toSpan = ⟨[], .ok S⟩ ∧ normal.cross (Point.unit axis) ≠ 0 ∧
      S.Denotes (normal.scale (-offset / normal.dot normal)) (normal.cross (Point.unit axis))
        (normal.cross (normal.cross (Point.unit axis))) := by
  let axis := P.normal.leastAxis
  have helper_value : (Vector.ofAxes fun i => if i = axis then 1 else 0).value? =
      some (Point.unit axis) := by
    cases axis <;> rfl
  obtain ⟨m, squared, m_value⟩ := Vector.dot_exact denotes.normal denotes.normal
  obtain ⟨k, divided, k_value⟩ := Scalar.divide_exact (Scalar.neg_exact denotes.offset) m_value
    (Point.dot_self_ne_zero nonzero)
  obtain ⟨base, scaled, base_value⟩ := Vector.scale_exact denotes.normal k_value
  obtain ⟨f, crossed, f_value⟩ := Vector.cross_exact denotes.normal helper_value
  obtain ⟨g, crossed_again, g_value⟩ := Vector.cross_exact denotes.normal f_value
  refine ⟨⟨base, f, g⟩, axis, ?_,
    Point.cross_unit_ne_zero nonzero (Vector.leastAxis_le denotes.normal),
    base_value, f_value, g_value⟩
  unfold Plane.toSpan
  dsimp only
  rw [if_neg (uncut ∘ denotes.cuts_iff.mp)]
  simp only [squared, divided, scaled, Noted.lift_ok, Noted.done_bind]
  rw [crossed]
  simp only [crossed_again, Noted.lift_ok, Noted.done_bind]
  rfl

/-- A plane with a normal is converted to a frame of it, without a note. -/
theorem Plane.Denotes.toSpan (denotes : P.Denotes normal offset) (nonzero : normal ≠ 0) :
    ∃ S base first second, P.toSpan = ⟨[], .ok S⟩ ∧ S.Denotes base first second ∧
      Frames normal offset base first second := by
  by_cases cuts : Intercepted normal offset
  · obtain ⟨S, converted, spans⟩ := denotes.toSpan_of_intercepts cuts
    exact ⟨S, _, _, _, converted, spans,
      frames_of_intercepts cuts.off_origin cuts.cuts_x cuts.cuts_y cuts.cuts_z⟩
  · obtain ⟨S, axis, converted, independent, spans⟩ := denotes.toSpan_of_foot nonzero cuts
    exact ⟨S, _, _, _, converted, spans, frames_of_foot nonzero independent⟩

/-- The points of a frame are those of the plane. -/
theorem Span.Denotes.contains_iff (denotes : S.Denotes base first second)
    (frames : Frames normal offset base first second) (nonzero : normal ≠ 0) :
    S.Contains p ↔ normal.dot p + offset = 0 := by
  constructor
  · rintro ⟨s, t, reaches⟩
    rw [denotes.reaches_iff.mp reaches]
    exact frames.contains_combine s t
  · intro solved
    obtain ⟨⟨s, t⟩, combined, _⟩ := frames.existsUnique nonzero solved
    exact ⟨s, t, denotes.reaches_iff.mpr combined⟩

/-- Two directions frame the plane of their equation. -/
theorem frames_of_cross (base first second : Point) :
    Frames (first.cross second) (-base.dot (first.cross second)) base first second where
  onPlane := by
    rw [Point.dot_comm]
    ring
  perpendicular := ⟨1, one_ne_zero, by ext <;> simp [Point.scale]⟩

/-- The equation of a frame is a multiple of the plane's own. -/
theorem Frames.solves_iff (frames : Frames normal offset base first second) :
    (first.cross second).dot p + -base.dot (first.cross second) = 0 ↔
      normal.dot p + offset = 0 := by
  obtain ⟨factor, proper, crossed⟩ := frames.perpendicular
  have multiple : (first.cross second).dot p + -base.dot (first.cross second) =
      (normal.dot p + offset) * factor := by
    rw [crossed, Point.scale_dot, Point.dot_scale, Point.dot_comm base]
    linear_combination (-factor) * frames.onPlane
  rw [multiple]
  simp [proper]

end

/-- A plane with a normal is converted to a span of its exact points, without a note, each of them
at one pair of parameters, and a span of two independent directions to the equation of its exact
points. Back from there the points are the same again. -/
theorem conversions_exact :
    (∀ (P : Plane) (normal : Point) (offset : Rat), P.Denotes normal offset → normal ≠ 0 →
      ∃ S, P.toSpan = ⟨[], .ok S⟩ ∧
        (∀ s t, ∃ p, S.Reaches s t p ∧ P.Contains p) ∧
        (∀ p, P.Contains p → ∃! parameters : Rat × Rat, S.Reaches parameters.1 parameters.2 p) ∧
        ∃ R, S.toPlane = .ok R ∧ ∀ p, R.Contains p ↔ P.Contains p) ∧
    ∀ (S : Span) (base first second : Point), S.Denotes base first second →
      first.cross second ≠ 0 →
      ∃ P, S.toPlane = .ok P ∧ (∀ p, P.Contains p ↔ S.Contains p) ∧
        ∃ R, P.toSpan = ⟨[], .ok R⟩ ∧ ∀ p, R.Contains p ↔ S.Contains p := by
  constructor
  · intro P normal offset denotes nonzero
    obtain ⟨S, base, first, second, converted, spans, frames⟩ := denotes.toSpan nonzero
    refine ⟨S, converted, ?_, ?_, ?_⟩
    · intro s t
      refine ⟨base + Point.combine first second s t, spans.reaches_iff.mpr rfl, ?_⟩
      exact denotes.contains_iff.mpr (frames.contains_combine s t)
    · intro p contains
      simp only [spans.reaches_iff]
      exact frames.existsUnique nonzero (denotes.contains_iff.mp contains)
    · obtain ⟨R, equation, again⟩ := spans.toPlane
      refine ⟨R, equation, fun p => ?_⟩
      rw [again.contains_iff, denotes.contains_iff, frames.solves_iff]
  · intro S base first second denotes independent
    obtain ⟨P, equation, plane⟩ := denotes.toPlane
    have points : ∀ p, P.Contains p ↔ S.Contains p := by
      intro p
      rw [plane.contains_iff,
        denotes.contains_iff (frames_of_cross base first second) independent]
    refine ⟨P, equation, points, ?_⟩
    obtain ⟨R, _, _, _, converted, spans, frames⟩ := plane.toSpan independent
    refine ⟨R, converted, fun p => ?_⟩
    rw [← points, plane.contains_iff, spans.contains_iff frames independent]

/-- A plane parallel to an axis, and a span across another. -/
theorem conversions_exact_parallel :
    (∃ S, (⟨⟨0, 3, 4⟩, 5⟩ : Plane).toSpan = ⟨[], .ok S⟩ ∧
      ∀ p, (⟨⟨0, 3, 4⟩, 5⟩ : Plane).Contains p →
        ∃! parameters : Rat × Rat, S.Reaches parameters.1 parameters.2 p) ∧
    ∃ P, (⟨⟨1, 2, 0⟩, ⟨0, 2, 0⟩, ⟨0, 1, 3⟩⟩ : Span).toPlane = .ok P ∧
      ∀ p, P.Contains p ↔ (⟨⟨1, 2, 0⟩, ⟨0, 2, 0⟩, ⟨0, 1, 3⟩⟩ : Span).Contains p := by
  constructor
  · obtain ⟨S, converted, _, unique, _⟩ :=
      conversions_exact.1 ⟨⟨0, 3, 4⟩, 5⟩ ⟨0, 3, 4⟩ 5 ⟨rfl, rfl⟩ (by decide)
    exact ⟨S, converted, unique⟩
  · have independent : (⟨0, 2, 0⟩ : Point).cross ⟨0, 1, 3⟩ ≠ 0 := by
      simp [Point.cross, Point.ext_iff]
    obtain ⟨P, equation, points, _⟩ := conversions_exact.2 ⟨⟨1, 2, 0⟩, ⟨0, 2, 0⟩, ⟨0, 1, 3⟩⟩
      ⟨1, 2, 0⟩ ⟨0, 2, 0⟩ ⟨0, 1, 3⟩ ⟨rfl, rfl, rfl⟩ independent
    exact ⟨P, equation, points⟩

end SolidGeometry
