import SolidGeometry.Proofs.Geometry.Domains
import SolidGeometry.Proofs.Geometry.Figure

/-! Which way a plane faces after it is written by two directions and by an equation again. The
equation comes back multiplied. A plane that is spanned from the foot of the origin faces the same
side as before; one that is spanned by its intercepts is turned over if the product of its
coefficients is negative. -/
namespace SolidGeometry

variable {P : Plane} {n base first second : Point} {d factor : Rat}

/-- The equation of two directions in a plane is the equation of the plane, multiplied. -/
theorem Frames.offset_eq (frames : Frames n d base first second)
    (crossed : first.cross second = n.scale factor) :
    -base.dot (first.cross second) = d * factor := by
  have contained := frames.onPlane
  rw [crossed, Point.dot_scale, Point.dot_comm, eq_neg_of_add_eq_zero_left contained, neg_mul,
    neg_neg]

/-- A plane has three intercepts, and the product of its coefficients is negative. -/
def TurnsOver (n : Point) (d : Rat) : Prop := d ≠ 0 ∧ n.x * n.y * n.z < 0

theorem TurnsOver.intercepted (turns : TurnsOver n d) : Intercepted n d := by
  obtain ⟨offset, negative⟩ := turns
  obtain ⟨front, z⟩ := mul_ne_zero_iff.mp negative.ne
  obtain ⟨x, y⟩ := mul_ne_zero_iff.mp front
  exact ⟨offset, x, y, z⟩

/-- The directions between the intercepts of a plane turn with the sign of the product. -/
theorem Intercepted.factor_neg (cuts : Intercepted n d) :
    d * d / (n.x * n.y * n.z) < 0 ↔ TurnsOver n d := by
  have square : 0 < d * d := mul_self_pos.mpr cuts.off_origin
  rw [TurnsOver, and_iff_right cuts.off_origin, div_neg_iff, and_iff_right square,
    or_iff_left fun negative => square.not_gt negative.1]

theorem Intercepted.factor_ne_zero (cuts : Intercepted n d) :
    d * d / (n.x * n.y * n.z) ≠ 0 := by
  obtain ⟨offset, x, y, z⟩ := cuts
  positivity

/-- The directions that a plane with a normal is converted to span it, and their cross product is
the normal multiplied by a factor, a negative one if the plane is turned over. -/
theorem Plane.Denotes.exists_factor (denotes : P.Denotes n d) (proper : n ≠ 0) :
    ∃ S base first second factor, P.toSpan = ⟨[], .ok S⟩ ∧ S.Denotes base first second ∧
      Frames n d base first second ∧ first.cross second = n.scale factor ∧ factor ≠ 0 ∧
      (factor < 0 ↔ TurnsOver n d) := by
  by_cases cuts : Intercepted n d
  · obtain ⟨S, converted, spans⟩ := denotes.toSpan_of_intercepts cuts
    exact ⟨S, _, _, _, _, converted, spans,
      frames_of_intercepts cuts.off_origin cuts.cuts_x cuts.cuts_y cuts.cuts_z,
      cross_of_intercepts cuts.cuts_x cuts.cuts_y cuts.cuts_z, cuts.factor_ne_zero,
      cuts.factor_neg⟩
  · obtain ⟨S, axis, converted, independent, spans⟩ := denotes.toSpan_of_foot proper cuts
    have positive := Point.dot_self_pos independent
    have upright : ¬TurnsOver n d := fun turns => cuts turns.intercepted
    exact ⟨S, _, _, _, _, converted, spans, frames_of_foot proper independent,
      cross_of_foot n _, positive.ne', iff_of_false positive.not_gt upright⟩

/-- An exact plane with a normal, written by two directions and by an equation again, comes back
multiplied by an exact factor. The factor is negative exactly if the plane does not pass through the
origin and the product of its coefficients is negative, and positive otherwise. -/
theorem orientation_of_round_trip {P : Plane} {n : Point} {d : Rat} (plane : P.Denotes n d)
    (proper : n ≠ 0) :
    ∃ S R k, P.toSpan.Quiet S ∧ S.toPlane = .ok R ∧ R.Denotes (n.scale k) (d * k) ∧ k ≠ 0 ∧
      (k < 0 ↔ d ≠ 0 ∧ n.x * n.y * n.z < 0) := by
  obtain ⟨S, base, first, second, k, converted, spans, frames, crossed, nonzero, negative⟩ :=
    plane.exists_factor proper
  obtain ⟨R, equation, denotes⟩ := spans.toPlane
  rw [frames.offset_eq crossed, crossed] at denotes
  exact ⟨S, R, k, .of_eq converted, equation, denotes, nonzero, negative⟩

/-- A plane with intercepts of both signs comes back facing the other side. -/
theorem orientation_of_round_trip_reversed : ∃ S R k,
    (⟨⟨1, 1, .int (-1)⟩, .int (-1)⟩ : Plane).toSpan.Quiet S ∧ S.toPlane = .ok R ∧
      R.Denotes (Point.scale ⟨1, 1, -1⟩ k) (-1 * k) ∧ k < 0 := by
  have plane : Plane.Denotes ⟨⟨1, 1, .int (-1)⟩, .int (-1)⟩ ⟨1, 1, -1⟩ (-1) := ⟨rfl, rfl⟩
  obtain ⟨S, R, k, converted, equation, denotes, -, negative⟩ :=
    orientation_of_round_trip plane (by decide +kernel)
  exact ⟨S, R, k, converted, equation, denotes, negative.mpr (by decide +kernel)⟩

end SolidGeometry
