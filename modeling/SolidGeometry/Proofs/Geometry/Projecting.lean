import SolidGeometry.Proofs.Geometry.Meeting

namespace SolidGeometry

def Point.foot (n : Point) (d : Rat) (p : Point) : Point :=
  p - n.scale ((n.dot p + d) / n.dot n)

namespace Figure

/-- Where the projection of a line on a plane begins: where the line meets the plane, or at the foot
of its base if it is parallel to the plane. -/
def anchor (b r n : Point) (d : Rat) : Point :=
  match piercing b r n d with
  | some (point hit) => hit
  | _ => n.foot d b

/-- The projection of a line on a plane, a point if the line is perpendicular to the plane. -/
def shadow (b r n : Point) (d : Rat) : Figure :=
  let direction := r - n.scale (r.dot n / n.dot n)
  if direction = 0 then point (anchor b r n d) else line (anchor b r n d) direction

end Figure

section

variable {v : Vector} {l : Line} {P : Plane} {b p r n : Point} {d : Rat} (proper : n ≠ 0)

include proper

theorem Plane.foot_exact (plane : P.Denotes n d) (point : v.value? = some p) :
    ∃ w, P.foot v = ⟨[], .ok w⟩ ∧ w.value? = some (n.foot d p) := by
  obtain ⟨product, multiplied, product_value⟩ := Vector.dot_exact plane.normal point
  obtain ⟨height, added, height_value⟩ := Scalar.add_exact product_value plane.offset
  obtain ⟨square, squared, square_value⟩ := Vector.dot_exact plane.normal plane.normal
  obtain ⟨t, divided, t_value⟩ :=
    Scalar.divide_exact height_value square_value (Point.dot_self_ne_zero proper)
  obtain ⟨drop, scaled, drop_value⟩ := Vector.scale_exact plane.normal t_value
  obtain ⟨w, moved, w_value⟩ := Vector.sub_exact point drop_value
  refine ⟨w, ?_, w_value⟩
  simp only [foot, multiplied, added, squared, divided, scaled, moved, Noted.lift_ok,
    Noted.done_bind]

/-- The projection of a line is continued from where it begins. -/
theorem Plane.anchor_exact (plane : P.Denotes n d) (line : l.Denotes b r) :
    ∃ w, w.value? = some (Figure.anchor b r n d) ∧ ∀ next : Vector → Computation Element,
      (P.intersectionWithLine l >>= fun
        | some (.vector hit) => pure hit >>= next
        | _ => P.foot l.base >>= next) = next w := by
  obtain ⟨o, met, shows⟩ := intersectionWithLine_exact line plane
  obtain ⟨w, dropped, w_value⟩ := foot_exact proper plane line.base
  have from_foot (next : Vector → Computation Element) : P.foot l.base >>= next = next w := by
    rw [dropped, Noted.done_bind]
  rw [met, Figure.anchor]
  generalize Figure.piercing b r n d = pierced at shows
  cases shows with
  | none => exact ⟨w, w_value, from_foot⟩
  | some shown =>
    cases shown with
    | vector hit => exact ⟨_, hit, fun _ => rfl⟩
    | line _ => exact ⟨w, w_value, from_foot⟩
    | plane _ => exact ⟨w, w_value, from_foot⟩

theorem Plane.projectionOfLine_exact (plane : P.Denotes n d) (line : l.Denotes b r) :
    ∃ e, P.projectionOfLine l = ⟨[], .ok e⟩ ∧ e.Shows (Figure.shadow b r n d) := by
  obtain ⟨product, multiplied, product_value⟩ := Vector.dot_exact line.direction plane.normal
  obtain ⟨square, squared, square_value⟩ := Vector.dot_exact plane.normal plane.normal
  obtain ⟨t, divided, t_value⟩ :=
    Scalar.divide_exact product_value square_value (Point.dot_self_ne_zero proper)
  obtain ⟨drop, scaled, drop_value⟩ := Vector.scale_exact plane.normal t_value
  obtain ⟨direction, moved, direction_value⟩ := Vector.sub_exact line.direction drop_value
  obtain ⟨anchor, anchor_value, continued⟩ := anchor_exact proper plane line
  have flat := Vector.isZero_of_exact direction_value
  have projected : P.projectionOfLine l =
      ⟨[], .ok (if direction.isZero then .vector anchor else .line ⟨anchor, direction⟩)⟩ := by
    unfold projectionOfLine
    simp only [multiplied, squared, divided, scaled, moved, Noted.lift_ok, Noted.done_bind]
    exact continued _
  refine ⟨_, projected, ?_⟩
  rw [flat, Figure.shadow]
  by_cases steep : r - n.scale (r.dot n / n.dot n) = 0
  · simp only [steep, decide_true, if_true]
    exact .vector anchor_value
  · simp only [steep, decide_false, if_false]
    exact .line ⟨anchor_value, direction_value⟩

end

end SolidGeometry
