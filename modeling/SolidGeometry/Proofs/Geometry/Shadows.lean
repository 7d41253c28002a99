import SolidGeometry.Proofs.Geometry.Directions
import SolidGeometry.Proofs.Geometry.Piercings
import SolidGeometry.Proofs.Geometry.Projecting

namespace SolidGeometry

namespace Point

variable {n p r : Point} {d : Rat}

/-- A direction without its part along a normal. -/
def flat (n r : Point) : Point := r - n.scale (r.dot n / n.dot n)

/-- The feet of the points of a line lie evenly. -/
theorem foot_along (n b r : Point) (d t : Rat) :
    n.foot d (b + r.scale t) = n.foot d b + (n.flat r).scale t := by
  rw [foot, foot, height_along, flat, dot_comm r]
  ext <;> simp only [scale, add_x, add_y, add_z, sub_x, sub_y, sub_z] <;> ring

/-- A point of a plane is its own foot. -/
theorem foot_of_contained (contained : n.dot p + d = 0) : n.foot d p = p := by
  rw [foot, contained, zero_div, scale_zero]
  ext <;> simp

/-- Only what is parallel to a normal is nothing without its part along it. -/
theorem flat_eq_zero (proper : n ≠ 0) : n.flat r = 0 ↔ r.cross n = 0 := by
  have square := dot_self_ne_zero proper
  rw [cross_eq_zero_comm, ← exists_scale_iff proper]
  constructor
  · intro nothing
    exact ⟨r.dot n / n.dot n, (sub_eq_iff.mp nothing).trans (Point.add_zero _)⟩
  · rintro ⟨t, rfl⟩
    rw [flat, scale_dot, mul_div_cancel_left₀ t square, Point.sub_self]

end Point

namespace Figure

variable {b n p r : Point} {d : Rat}

/-- The projection of a line begins at the foot of one of its points. -/
theorem exists_anchor (b r n : Point) (d : Rat) :
    ∃ t, anchor b r n d = n.foot d (b + r.scale t) := by
  have at_base : n.foot d b = n.foot d (b + r.scale 0) := by
    rw [Point.scale_zero, Point.add_zero]
  unfold anchor piercing
  -- Only a point at which the line pierces the plane is taken as it is, and it is its own foot.
  split_ifs with parallel contained
  · exact ⟨0, at_base⟩
  · exact ⟨0, at_base⟩
  · refine ⟨-(n.dot b + d) / n.dot r, (Point.foot_of_contained ?_).symm⟩
    rw [Point.height_along]
    field_simp
    ring

theorem shadow_eq (b r n : Point) (d : Rat) : shadow b r n d =
    if n.flat r = 0 then point (anchor b r n d) else line (anchor b r n d) (n.flat r) := rfl

/-- The projection of a line is followed from where it begins, also if it is a single point. -/
theorem shadow_contains_from : (shadow b r n d).Contains p ↔
    ∃ s, p = anchor b r n d + (n.flat r).scale s := by
  rw [shadow_eq]
  by_cases steep : n.flat r = 0
  · rw [if_pos steep, steep]
    simp only [Point.zero_scale, Point.add_zero, exists_const]
    rfl
  · rw [if_neg steep]
    rfl

/-- The projection of a line consists of the feet of its points. -/
theorem shadow_contains_iff :
    (shadow b r n d).Contains p ↔ ∃ t, p = n.foot d (b + r.scale t) := by
  obtain ⟨begins, anchored⟩ := exists_anchor b r n d
  have moved (s t : Rat) : n.foot d (b + r.scale s) + (n.flat r).scale t =
      n.foot d (b + r.scale (s + t)) := by
    rw [Point.foot_along, Point.foot_along]
    ext <;> simp only [Point.scale, Point.add_x, Point.add_y, Point.add_z] <;> ring
  rw [shadow_contains_from, anchored]
  simp only [moved]
  constructor
  · rintro ⟨s, rfl⟩
    exact ⟨begins + s, rfl⟩
  · rintro ⟨t, rfl⟩
    exact ⟨t - begins, by rw [add_sub_cancel]⟩

end Figure

/-- The projection of the point of a line at a parameter, whatever exact number stands for it. -/
def Plane.Projects (P : Plane) (l : Line) (t : Rat) (p : Point) : Prop :=
  ∀ a : Scalar, a.rational? = some t → ∃ q w, l.point a = .ok q ∧
    Operation.projection.Answers (.plane P) (.vector q) (.element (.vector w)) ∧ w.value? = some p

section

variable {l : Line} {P : Plane} {v : Vector} {b n p r : Point} {d t : Rat}
  (plane : P.Denotes n d) (proper : n ≠ 0)

include plane proper

theorem Plane.foot_answers (point : v.value? = some p) : ∃ w : Vector,
    Operation.projection.Answers (.plane P) (.vector v) (.element (.vector w)) ∧
      w.value? = some (n.foot d p) := by
  obtain ⟨w, dropped, w_value⟩ := foot_exact proper plane point
  refine ⟨w, ?_, w_value⟩
  exact Operation.answers_of_method rfl rfl (Element.Depicts.plane plane proper).degeneracy?_eq rfl
    rfl (((Noted.Quiet.of_eq dropped).map Element.vector).map Value.element)

theorem Plane.projects_iff (line : l.Denotes b r) :
    P.Projects l t p ↔ p = n.foot d (b + r.scale t) := by
  have projected : P.Projects l t (n.foot d (b + r.scale t)) := by
    intro a at_t
    obtain ⟨q, along, q_value⟩ := line.reaches_iff.mpr rfl a at_t
    obtain ⟨w, answers, w_value⟩ := foot_answers plane proper q_value
    exact ⟨q, w, along, answers, w_value⟩
  constructor
  · intro projects
    obtain ⟨q, w, along, answers, w_value⟩ := projects (.ratio t) rfl
    obtain ⟨q', w', along', answers', w_value'⟩ := projected (.ratio t) rfl
    cases along.symm.trans along'
    cases answers.result.symm.trans answers'.result
    exact Option.some.inj (w_value.symm.trans w_value')
  · rintro rfl
    exact projected

end

/-- The projection of an exact line on an exact plane with a normal consists of the projections of
all points of the line. It is a point if the line has no direction or that of the normal, and a line
otherwise. It is always found, and nothing is warned of but a line without a direction. -/
theorem projection_of_line {l : Line} {P : Plane} {b r n : Point} {d : Rat}
    (line : l.Denotes b r) (plane : P.Denotes n d) (proper : n ≠ 0) :
    ∃ v, Operation.projection.Returns (.line l) (.plane P) v ∧
      (∀ p, v.Contains p ↔ ∃ t, P.Projects l t p) ∧ (∀ t, ∃ p, P.Projects l t p) ∧
      ((∃ u, v = .element (.vector u)) ↔ r.cross n = 0) ∧
      ((∃ k, v = .element (.line k)) ↔ r.cross n ≠ 0) := by
  obtain ⟨e, projected, shows⟩ := Plane.projectionOfLine_exact proper plane line
  refine ⟨.element e, ?_, fun p => ?_, fun t => ?_, ?_⟩
  · exact Operation.returns_of_method rfl rfl rfl ((Noted.Quiet.of_eq projected).map _)
  · simp only [Plane.projects_iff plane proper line]
    exact shows.contains_iff.trans Figure.shadow_contains_iff
  · exact ⟨_, (Plane.projects_iff plane proper line).mpr rfl⟩
  · rw [ne_eq, ← Point.flat_eq_zero proper]
    rw [Figure.shadow_eq] at shows
    by_cases steep : n.flat r = 0
    · rw [if_pos steep] at shows
      cases shows
      simp [steep]
    · rw [if_neg steep] at shows
      cases shows
      simp [steep]

/-- A line along the normal of a plane is projected on one point, a slanted one on a line through the
foot of its base. -/
theorem projection_of_line_steep :
    (∃ u, Operation.projection.Returns (.line ⟨⟨1, .ratio (1 / 2), 7⟩, ⟨2, .int (-4), 6⟩⟩)
      (.plane ⟨⟨.ratio (1 / 3), .ratio (-2 / 3), 1⟩, 0⟩) (.element (.vector u)) ∧
      u.value? = some ⟨-1 / 2, 7 / 2, 5 / 2⟩) ∧
    ∃ k, Operation.projection.Returns (.line ⟨⟨1, .ratio (1 / 2), 7⟩, ⟨0, 0, 1⟩⟩)
      (.plane ⟨⟨.ratio (1 / 3), .ratio (-2 / 3), 1⟩, 0⟩) (.element (.line k)) ∧
      k.Contains ⟨-1 / 2, 7 / 2, 5 / 2⟩ := by
  have plane : Plane.Denotes ⟨⟨.ratio (1 / 3), .ratio (-2 / 3), 1⟩, 0⟩ ⟨1 / 3, -2 / 3, 1⟩ 0 :=
    ⟨rfl, rfl⟩
  have proper : (⟨1 / 3, -2 / 3, 1⟩ : Point) ≠ 0 := by decide +kernel
  have steep : Line.Denotes ⟨⟨1, .ratio (1 / 2), 7⟩, ⟨2, .int (-4), 6⟩⟩ ⟨1, 1 / 2, 7⟩ ⟨2, -4, 6⟩ :=
    ⟨rfl, rfl⟩
  have slanted : Line.Denotes ⟨⟨1, .ratio (1 / 2), 7⟩, ⟨0, 0, 1⟩⟩ ⟨1, 1 / 2, 7⟩ ⟨0, 0, 1⟩ :=
    ⟨rfl, rfl⟩
  constructor
  · obtain ⟨v, returns, points, -, point, -⟩ := projection_of_line steep plane proper
    obtain ⟨u, rfl⟩ := point.mpr (by decide +kernel)
    refine ⟨u, returns, (points _).mpr ⟨0, ?_⟩⟩
    exact (Plane.projects_iff plane proper steep).mpr (by decide +kernel)
  · obtain ⟨v, returns, points, -, -, line⟩ := projection_of_line slanted plane proper
    obtain ⟨k, rfl⟩ := line.mpr (by decide +kernel)
    refine ⟨k, returns, (points _).mpr ⟨0, ?_⟩⟩
    exact (Plane.projects_iff plane proper slanted).mpr (by decide +kernel)

end SolidGeometry
