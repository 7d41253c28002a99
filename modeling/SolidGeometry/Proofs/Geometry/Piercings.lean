import SolidGeometry.Proofs.Geometry.Reports
import SolidGeometry.Proofs.Geometry.Meeting

namespace SolidGeometry

/-- The exact points of a value: those of an element, and none where there is no element. -/
def Value.Contains : Value → Point → Prop
  | .element e, p => e.Contains p
  | _, _ => False

theorem Element.Shows.contains_iff {e : Element} {F : Figure} {p : Point} (shows : e.Shows F) :
    e.Contains p ↔ F.Contains p := by
  cases shows with
  | vector value =>
    simp only [Contains, Figure.Contains, value, Option.some.injEq]
    exact eq_comm
  | line denotes => exact denotes.contains_iff
  | plane denotes => exact denotes.contains_iff

theorem Value.Shows.contains_iff {v : Value} {F : Option Figure} {p : Point} (shows : v.Shows F) :
    v.Contains p ↔ ∃ A ∈ F, A.Contains p := by
  cases shows with
  | none => simp [Contains]
  | element shown => simp [Contains, shown.contains_iff]

/-- A vector that stands for a figure is the exact point. -/
theorem Value.Shows.exists_point {u : Vector} {F : Option Figure}
    (shows : (Value.element (.vector u)).Shows F) : ∃ p, u.value? = some p := by
  cases shows with
  | element shown =>
    cases shown with
    | vector value => exact ⟨_, value⟩

namespace Figure

variable {b n p r : Point} {d t : Rat}

/-- A plane contains the points of a line at which the height above it is zero. -/
theorem plane_contains_along :
    (plane n d).Contains (b + r.scale t) ↔ n.dot b + d + n.dot r * t = 0 := by
  rw [Contains, Point.height_along]

/-- Where a line pierces a plane are the points of both. -/
theorem piercing_contains_iff :
    (∃ A ∈ piercing b r n d, A.Contains p) ↔
      (line b r).Contains p ∧ (plane n d).Contains p := by
  unfold piercing
  -- Without a slope the height above the plane is the same all along the line, also where the line
  -- has no direction or the plane no normal.
  split_ifs with parallel contained
  · simp only [Option.mem_some_iff, exists_eq_left', iff_self_and]
    rintro ⟨t, rfl⟩
    rw [plane_contains_along, contained, parallel, zero_mul, add_zero]
  · simp only [Option.mem_def, reduceCtorEq, false_and, exists_false, false_iff]
    rintro ⟨⟨t, rfl⟩, solved⟩
    rw [plane_contains_along, parallel, zero_mul, add_zero] at solved
    exact contained solved
  · simp only [Option.mem_some_iff, exists_eq_left']
    have height (t : Rat) : n.dot b + d + n.dot r * t = 0 ↔ t = -(n.dot b + d) / n.dot r := by
      rw [eq_div_iff parallel, add_comm, add_eq_zero_iff_eq_neg, mul_comm]
    constructor
    · rintro rfl
      exact ⟨⟨_, rfl⟩, plane_contains_along.mpr ((height _).mpr rfl)⟩
    · rintro ⟨⟨t, rfl⟩, solved⟩
      rw [(height t).mp (plane_contains_along.mp solved)]
      rfl

end Figure

section

variable {l : Line} {P : Plane} {o : Option Element}

/-- A line and a plane have nothing in common, a point or the line itself. -/
theorem Plane.intersectionWithLine_cases (returns : (P.intersectionWithLine l).result = .ok o) :
    o = none ∨ (∃ u, o = some (.vector u)) ∨ o = some (.line l) := by
  simp only [intersectionWithLine, Noted.result_bind, Noted.result_lift] at returns
  obtain ⟨slope, -, product, -, height, -, told⟩ := returns
  split at told
  · cases told
    split
    · exact .inr (.inr rfl)
    · exact .inl rfl
  · obtain ⟨t, -, reached⟩ := Noted.result_bind.mp told
    obtain ⟨u, -, result⟩ := Noted.result_bind.mp reached
    cases result
    exact .inr (.inl ⟨u, rfl⟩)

end

/-- The intersection of an exact line and an exact plane has the points of both, even if the line
has no direction or the plane no normal: the value is none, an exact point or the line itself. It is
always found, and nothing is warned of but the operands themselves. -/
theorem intersection_of_line_and_plane {l : Line} {P : Plane} {b r n : Point} {d : Rat}
    (line : l.Denotes b r) (plane : P.Denotes n d) :
    ∃ v, Operation.intersection.Returns (.line l) (.plane P) v ∧
      (∀ p, v.Contains p ↔ l.Contains p ∧ P.Contains p) ∧
      (v = .none ∨ (∃ u p, v = .element (.vector u) ∧ u.value? = some p) ∨
        v = .element (.line l)) := by
  obtain ⟨o, met, related⟩ := Plane.intersectionWithLine_exact line plane
  have shows := Element.Shows.value related
  refine ⟨_, Operation.returns_of_method rfl rfl rfl ((Noted.Quiet.of_eq met).map _),
    fun p => ?_, ?_⟩
  · rw [shows.contains_iff, Figure.piercing_contains_iff, line.contains_iff,
      plane.contains_iff]
    rfl
  · have found : (P.intersectionWithLine l).result = .ok o := by rw [met]
    rcases Plane.intersectionWithLine_cases found with rfl | ⟨u, rfl⟩ | rfl
    · exact .inl rfl
    · obtain ⟨p, u_value⟩ := shows.exists_point
      exact .inr (.inl ⟨u, p, rfl, u_value⟩)
    · exact .inr (.inr rfl)

/-- A single point, written as a line, in all of space, written as a plane. -/
theorem intersection_of_line_and_plane_degenerate : ∃ v,
    Operation.intersection.Returns (.line ⟨⟨.ratio (1 / 2), .int (-7), 3⟩, ⟨0, 0, 0⟩⟩)
      (.plane ⟨⟨0, 0, 0⟩, 0⟩) v ∧ ∀ p, v.Contains p ↔ p = ⟨1 / 2, -7, 3⟩ := by
  have line : Line.Denotes ⟨⟨.ratio (1 / 2), .int (-7), 3⟩, ⟨0, 0, 0⟩⟩ ⟨1 / 2, -7, 3⟩ 0 := ⟨rfl, rfl⟩
  have plane : Plane.Denotes ⟨⟨0, 0, 0⟩, 0⟩ 0 0 := ⟨rfl, rfl⟩
  obtain ⟨v, returns, points, -⟩ := intersection_of_line_and_plane line plane
  refine ⟨v, returns, fun p => ?_⟩
  rw [points, line.contains_iff, plane.contains_iff]
  simp [Point.add_zero]

end SolidGeometry
