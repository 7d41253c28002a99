import SolidGeometry.Proofs.Geometry.Crossings
import SolidGeometry.Proofs.Geometry.Representations

namespace SolidGeometry

namespace Point

theorem dot_from (p q : Point) (i : Axis) :
    p.dot q = p.at i * q.at i + p.at i.next * q.at i.next + p.at i.next.next * q.at i.next.next := by
  cases i <;> simp only [dot, Point.at, Axis.next] <;> ring

theorem at_cross (p q : Point) (i : Axis) :
    (p.cross q).at i = p.at i.next * q.at i.next.next - p.at i.next.next * q.at i.next := by
  cases i <;> rfl

/-- The pivot is the first axis on which there is a component. -/
theorem find?_pivot {p : Point} (nonzero : p ≠ 0) :
    Axis.all.find? (fun i => p.at i ≠ 0) = some p.pivot := by
  simp only [Axis.all, List.find?_cons, Point.at, pivot]
  by_cases x : p.x = 0
  · by_cases y : p.y = 0
    · have z : p.z ≠ 0 := fun z => nonzero (Point.ext x y z)
      simp [x, y, z]
    · simp [x, y]
  · simp [x]

theorem at_pivot_ne_zero {p : Point} (nonzero : p ≠ 0) : p.at p.pivot ≠ 0 := by
  simpa using List.find?_some (find?_pivot nonzero)

/-- The point at zero on an axis that solves the equations of two planes. -/
def solution (m : Point) (d : Rat) (n : Point) (e : Rat) (i : Axis) : Point :=
  let coordinate (a : Axis) : Rat :=
    if a = i.next then (m.at i.next.next * e - n.at i.next.next * d) / (m.cross n).at i
    else if a = i.next.next then (n.at i.next * d - m.at i.next * e) / (m.cross n).at i else 0
  ⟨coordinate .x, coordinate .y, coordinate .z⟩

section

variable (m n : Point) (d e : Rat) (i : Axis)

theorem solution_at : (solution m d n e i).at i = 0 := by
  cases i <;> rfl

theorem solution_at_next : (solution m d n e i).at i.next =
    (m.at i.next.next * e - n.at i.next.next * d) / (m.cross n).at i := by
  cases i <;> rfl

theorem solution_at_next_next : (solution m d n e i).at i.next.next =
    (n.at i.next * d - m.at i.next * e) / (m.cross n).at i := by
  cases i <;> rfl

end

/-- By the rule of Cramer in the plane of the other two axes. -/
theorem dot_solution {m n : Point} {i : Axis} (proper : (m.cross n).at i ≠ 0) (d e : Rat) :
    m.dot (solution m d n e i) + d = 0 ∧ n.dot (solution m d n e i) + e = 0 := by
  rw [dot_from m _ i, dot_from n _ i, solution_at, solution_at_next, solution_at_next_next]
  have minor := at_cross m n i
  constructor
  · field_simp
    rw [minor]
    ring
  · field_simp
    rw [minor]
    ring

end Point

namespace Figure

variable {b m n p : Point} {d e k : Rat}

/-- A line through a point of two planes across both normals has the points of both. -/
theorem common_contains_iff (independent : m.cross n ≠ 0) (nonzero : k ≠ 0)
    (first : m.dot b + d = 0) (second : n.dot b + e = 0) :
    (line b ((m.cross n).scale k)).Contains p ↔ m.dot p + d = 0 ∧ n.dot p + e = 0 := by
  constructor
  · rintro ⟨t, rfl⟩
    rw [Point.height_along, Point.height_along, first, second, Point.dot_scale, Point.dot_scale,
      Point.dot_comm m, Point.dot_comm n, Point.cross_dot_left, Point.cross_dot_right]
    simp
  · rintro ⟨third, fourth⟩
    have flat : m.dot (p - b) = 0 ∧ n.dot (p - b) = 0 := by
      rw [Point.dot_sub, Point.dot_sub]
      constructor <;> linarith
    have parallel : (p - b).cross (m.cross n) = 0 := by
      rw [Point.cross_cross, Point.dot_comm _ n, Point.dot_comm _ m, flat.1, flat.2,
        Point.scale_zero, Point.scale_zero, Point.sub_self]
    rw [line_contains_iff (Point.scale_ne_zero independent nonzero), Point.scale_cross,
      Point.cross_eq_zero_comm.mp parallel, Point.zero_scale]

theorem seam_eq (m n : Point) (d e : Rat) :
    seam m d n e = line (Point.solution m d n e (m.cross n).pivot)
      ((m.cross n).scale ((m.cross n).at (m.cross n).pivot)⁻¹) := rfl

/-- The line on two planes of different directions has the points of both. -/
theorem seam_contains_iff (independent : m.cross n ≠ 0) :
    (seam m d n e).Contains p ↔ m.dot p + d = 0 ∧ n.dot p + e = 0 := by
  have proper := Point.at_pivot_ne_zero independent
  obtain ⟨first, second⟩ := Point.dot_solution proper d e
  rw [seam_eq]
  exact common_contains_iff independent (inv_ne_zero proper) first second

end Figure

/-- The intersection of two planes of different directions is the line on both. -/
theorem Plane.intersection_answers {P Q : Plane} {m n : Point} {d e : Rat} (first : P.Denotes m d)
    (second : Q.Denotes n e) (independent : m.cross n ≠ 0) : ∃ l : Line,
      Operation.intersection.Answers (.plane P) (.plane Q) (.element (.line l)) ∧
        (Element.line l).Shows (Figure.seam m d n e) := by
  obtain ⟨m_nonzero, n_nonzero⟩ := Point.ne_zero_of_cross independent
  obtain ⟨l, met, shows⟩ := intersection_exact first second independent
  refine ⟨l, ?_, shows⟩
  exact Operation.answers_of_method rfl rfl (Element.Depicts.plane first m_nonzero).degeneracy?_eq
    (Element.Depicts.plane second n_nonzero).degeneracy?_eq rfl
    ((Noted.Quiet.of_eq met).map fun o => o.elim Value.none Value.element)

/-- Two exact planes of different directions have an exact line as their intersection, whose points
are those on both planes. On the first axis on which the cross product of the normals has a
component, the line begins at zero and has the component one. No warning is left, and numerically
equal lines are found if the planes are exchanged and their equations multiplied. -/
theorem intersection_of_planes {P Q : Plane} {m n : Point} {d e : Rat} (first : P.Denotes m d)
    (second : Q.Denotes n e) (independent : m.cross n ≠ 0) :
    ∃ l b r i, Operation.intersection.Answers (.plane P) (.plane Q) (.element (.line l)) ∧
      l.Denotes b r ∧ (∀ p, l.Contains p ↔ P.Contains p ∧ Q.Contains p) ∧
      Axis.all.find? (fun i => (m.cross n).at i ≠ 0) = some i ∧ b.at i = 0 ∧ r.at i = 1 ∧
      ∀ (P' Q' : Plane) (j k : Rat), j ≠ 0 → k ≠ 0 → P'.Denotes (m.scale j) (d * j) →
        Q'.Denotes (n.scale k) (e * k) →
        ∃ v w, Operation.intersection.Answers (.plane P') (.plane Q') v ∧
          Operation.intersection.Answers (.plane Q') (.plane P') w ∧
          v.eqv (.element (.line l)) = true ∧ w.eqv (.element (.line l)) = true := by
  obtain ⟨l, answers, shows⟩ := Plane.intersection_answers first second independent
  have proper := Point.at_pivot_ne_zero independent
  have same := Value.Shows.element shows
  rw [Figure.seam_eq] at shows
  obtain _ | ⟨denotes⟩ := shows
  refine ⟨l, _, _, _, answers, denotes, ?_, Point.find?_pivot independent,
    Point.solution_at m n d e _, ?_, ?_⟩
  · intro p
    rw [denotes.contains_iff, first.contains_iff, second.contains_iff]
    exact Figure.seam_contains_iff independent
  · rw [Point.at_scale, mul_inv_cancel₀ proper]
  · intro P' Q' j k j_nonzero k_nonzero first' second'
    have scaled : (m.scale j).cross (n.scale k) ≠ 0 := by
      rw [Point.scale_cross, Point.cross_scale]
      exact Point.scale_ne_zero (Point.scale_ne_zero independent k_nonzero) j_nonzero
    have turned : (n.scale k).cross (m.scale j) ≠ 0 := scaled ∘ Point.cross_eq_zero_comm.mp
    have seam_same : Figure.seam (m.scale j) (d * j) (n.scale k) (e * k) = Figure.seam m d n e := by
      rw [Figure.seam_scale j_nonzero, Figure.seam_comm, Figure.seam_scale k_nonzero,
        Figure.seam_comm]
    obtain ⟨v, v_answers, v_shows⟩ := Plane.intersection_answers first' second' scaled
    obtain ⟨w, w_answers, w_shows⟩ := Plane.intersection_answers second' first' turned
    rw [seam_same] at v_shows
    rw [Figure.seam_comm, seam_same] at w_shows
    exact ⟨_, _, v_answers, w_answers, (Value.Shows.element v_shows).eqv same,
      (Value.Shows.element w_shows).eqv same⟩

/-- Two planes whose line is measured by the second axis, as they are and exchanged with the first
equation multiplied by a negative factor. -/
theorem intersection_of_planes_fractions :
    Point.cross ⟨1, 2, 4⟩ ⟨3, 1, 2⟩ ≠ 0 ∧ ∃ l b r,
      Operation.intersection.Answers (.plane ⟨⟨1, 2, 4⟩, .ratio (1 / 3)⟩)
        (.plane ⟨⟨3, 1, 2⟩, .int (-6)⟩) (.element (.line l)) ∧
      l.Denotes b r ∧ b.y = 0 ∧ r.y = 1 ∧ ∃ w,
        Operation.intersection.Answers (.plane ⟨⟨3, 1, 2⟩, .int (-6)⟩)
          (.plane ⟨⟨.int (-3), .int (-6), .int (-12)⟩, .int (-1)⟩) w ∧
        w.eqv (.element (.line l)) = true := by
  have first : Plane.Denotes ⟨⟨1, 2, 4⟩, .ratio (1 / 3)⟩ ⟨1, 2, 4⟩ (1 / 3) := ⟨rfl, rfl⟩
  have second : Plane.Denotes ⟨⟨3, 1, 2⟩, .int (-6)⟩ ⟨3, 1, 2⟩ (-6) := ⟨rfl, rfl⟩
  have independent : Point.cross ⟨1, 2, 4⟩ ⟨3, 1, 2⟩ ≠ 0 := by decide +kernel
  obtain ⟨l, b, r, i, answers, denotes, -, found, zero, one, again⟩ :=
    intersection_of_planes first second independent
  have pivot : Axis.all.find? (fun i => (Point.cross ⟨1, 2, 4⟩ ⟨3, 1, 2⟩).at i ≠ 0) = some .y := by
    decide +kernel
  cases pivot.symm.trans found
  obtain ⟨-, w, -, turned, -, same⟩ :=
    again ⟨⟨.int (-3), .int (-6), .int (-12)⟩, .int (-1)⟩ ⟨⟨3, 1, 2⟩, .int (-6)⟩ (-3) 1
      (by decide +kernel) (by decide +kernel) ⟨by decide +kernel, by decide +kernel⟩
      ⟨by decide +kernel, by decide +kernel⟩
  exact ⟨independent, l, b, r, answers, denotes, zero, one, w, turned, same⟩

end SolidGeometry
