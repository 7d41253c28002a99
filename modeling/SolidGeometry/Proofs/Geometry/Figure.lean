import SolidGeometry.Proofs.Geometry.Conversion

namespace SolidGeometry

namespace Point

theorem cross_add (p q r : Point) : p.cross (q + r) = p.cross q + p.cross r := by
  ext <;> simp only [cross, add_x, add_y, add_z] <;> ring

@[simp] theorem zero_dot (p : Point) : (0 : Point).dot p = 0 := by
  simp [dot]

protected theorem sub_self (p : Point) : p - p = 0 := by
  ext <;> simp

protected theorem add_zero (p : Point) : p + 0 = p := by
  ext <;> simp

@[simp] theorem cross_self (p : Point) : p.cross p = 0 := by
  ext <;> simp only [cross, zero_x, zero_y, zero_z] <;> ring

@[simp] theorem scale_zero (p : Point) : p.scale 0 = 0 := by
  ext <;> simp [scale]

@[simp] theorem zero_scale (factor : Rat) : (0 : Point).scale factor = 0 := by
  ext <;> simp [scale]

variable {p q r : Point}

/-- What is parallel to a direction is a multiple of it. -/
theorem exists_scale_iff (nonzero : r ≠ 0) : (∃ t, q = r.scale t) ↔ r.cross q = 0 := by
  constructor
  · rintro ⟨t, rfl⟩
    rw [cross_scale, cross_self, zero_scale]
  · intro parallel
    have square := dot_self_ne_zero nonzero
    have expanded := cross_cross r r q
    rw [parallel] at expanded
    refine ⟨r.dot q / r.dot r, ?_⟩
    have coordinates := Point.ext_iff.mp expanded
    simp only [cross, scale, sub_x, sub_y, sub_z, zero_x, zero_y, zero_z] at coordinates
    obtain ⟨x, y, z⟩ := coordinates
    ext
    · simp only [scale]
      field_simp
      linarith
    · simp only [scale]
      field_simp
      linarith
    · simp only [scale]
      field_simp
      linarith

/-- The height above a plane grows evenly along a line. -/
theorem height_along (n b r : Point) (d t : Rat) :
    n.dot (b + r.scale t) + d = n.dot b + d + n.dot r * t := by
  rw [dot_add, dot_scale]
  ring

/-- The point on two planes that lies in the plane of their normals. -/
def meet (m : Point) (c : Rat) (n : Point) (d : Rat) : Point :=
  combine (n.cross (m.cross n)) ((m.cross n).cross m) (-c / (m.cross n).dot (m.cross n))
    (-d / (m.cross n).dot (m.cross n))

theorem dot_meet {m n : Point} (independent : m.cross n ≠ 0) (c d : Rat) :
    m.dot (meet m c n d) + c = 0 ∧ n.dot (meet m c n d) + d = 0 := by
  have square := dot_self_ne_zero independent
  have first : m.dot (n.cross (m.cross n)) = (m.cross n).dot (m.cross n) := by
    simp only [dot, cross]
    ring
  have second : n.dot ((m.cross n).cross m) = (m.cross n).dot (m.cross n) := by
    simp only [dot, cross]
    ring
  have third : m.dot ((m.cross n).cross m) = 0 := by
    rw [dot_comm, cross_dot_right]
  have fourth : n.dot (n.cross (m.cross n)) = 0 := by
    rw [dot_comm, cross_dot_left]
  unfold meet combine
  constructor
  · rw [dot_add, dot_scale, dot_scale, first, third]
    field_simp
    ring
  · rw [dot_add, dot_scale, dot_scale, second, fourth]
    field_simp
    ring

end Point

/-- A point, a line or a plane of exact numbers. -/
inductive Figure where
  | point (p : Point)
  | line (base direction : Point)
  | plane (normal : Point) (offset : Rat)

namespace Figure

def Contains : Figure → Point → Prop
  | point q, p => p = q
  | line base direction, p => ∃ t, p = base + direction.scale t
  | plane normal offset, p => normal.dot p + offset = 0

/-- Two figures have a point in common. -/
def Touches (A B : Figure) : Prop := ∃ p, A.Contains p ∧ B.Contains p

theorem touches_comm {A B : Figure} : A.Touches B ↔ B.Touches A := by
  constructor
  · rintro ⟨p, first, second⟩
    exact ⟨p, second, first⟩
  · rintro ⟨p, first, second⟩
    exact ⟨p, second, first⟩

variable {b c m n p q r s : Point} {d e : Rat}

theorem point_touches (A : Figure) : A.Touches (point p) ↔ A.Contains p := by
  constructor
  · rintro ⟨_, contained, rfl⟩
    exact contained
  · intro contained
    exact ⟨p, contained, rfl⟩

theorem line_contains_iff (nonzero : r ≠ 0) :
    (line b r).Contains p ↔ r.cross (p - b) = 0 := by
  rw [← Point.exists_scale_iff nonzero]
  simp only [Contains, Point.sub_eq_iff]

/-- A line contains a point of another if the vector between the bases is made up of the ways from
them to it. -/
theorem line_contains_along {t : Rat} :
    (line c s).Contains (b + r.scale t) ↔ ∃ u, c - b = Point.combine r s t u := by
  simp only [Contains, Point.ext_iff, Point.combine, Point.scale, Point.add_x, Point.add_y,
    Point.add_z, Point.sub_x, Point.sub_y, Point.sub_z]
  constructor
  · rintro ⟨u, x, y, z⟩
    exact ⟨-u, by linarith, by linarith, by linarith⟩
  · rintro ⟨u, x, y, z⟩
    exact ⟨-u, by linarith, by linarith, by linarith⟩

/-- Lines of different directions touch if the vector between them is in the plane of the
directions. -/
theorem line_touches_line (independent : r.cross s ≠ 0) :
    (line b r).Touches (line c s) ↔ (r.cross s).dot (c - b) = 0 := by
  constructor
  · rintro ⟨_, ⟨t, rfl⟩, second⟩
    obtain ⟨u, gap⟩ := line_contains_along.mp second
    rw [gap, Point.cross_dot_combine]
  · intro flat
    obtain ⟨⟨t, u⟩, gap, _⟩ := Point.existsUnique_combine independent flat
    exact ⟨b + r.scale t, ⟨t, rfl⟩, line_contains_along.mpr ⟨u, gap⟩⟩

/-- Parallel lines touch if one contains the base of the other. -/
theorem line_touches_parallel (nonzero : r ≠ 0) (parallel : r.cross s = 0) :
    (line b r).Touches (line c s) ↔ r.cross (c - b) = 0 := by
  constructor
  · rintro ⟨p, first, u, rfl⟩
    rw [line_contains_iff nonzero] at first
    have moved : c + s.scale u - b = c - b + s.scale u := by
      ext <;> simp only [Point.add_x, Point.add_y, Point.add_z, Point.sub_x, Point.sub_y,
        Point.sub_z] <;> ring
    rw [moved, Point.cross_add, Point.cross_scale, parallel, Point.zero_scale] at first
    rwa [Point.add_zero] at first
  · intro along
    refine ⟨c, (line_contains_iff nonzero).mpr along, 0, ?_⟩
    ext <;> simp

theorem line_touches_plane : (line b r).Touches (plane n d) ↔ n.dot r ≠ 0 ∨ n.dot b + d = 0 := by
  constructor
  · rintro ⟨_, ⟨t, rfl⟩, solved⟩
    rw [Contains, Point.height_along] at solved
    by_cases flat : n.dot r = 0
    · rw [flat] at solved
      exact .inr (by linarith)
    · exact .inl flat
  · rintro (slope | contained)
    · refine ⟨_, ⟨-(n.dot b + d) / n.dot r, rfl⟩, ?_⟩
      rw [Contains, Point.height_along]
      field_simp
      ring
    · refine ⟨_, ⟨0, rfl⟩, ?_⟩
      rw [Contains, Point.height_along]
      linarith

theorem plane_touches_plane (independent : m.cross n ≠ 0) : (plane m d).Touches (plane n e) :=
  ⟨_, Point.dot_meet independent d e⟩

/-- Planes of parallel normals touch if one contains some point of the other. -/
theorem plane_touches_parallel (nonzero : m ≠ 0) (parallel : m.cross n = 0)
    (contained : (plane m d).Contains p) :
    (plane m d).Touches (plane n e) ↔ n.dot p + e = 0 := by
  obtain ⟨k, rfl⟩ := (Point.exists_scale_iff nonzero).mpr parallel
  have first : m.dot p + d = 0 := contained
  constructor
  · rintro ⟨q, second, solved⟩
    have second : m.dot q + d = 0 := second
    have solved : (m.scale k).dot q + e = 0 := solved
    rw [Point.scale_dot] at solved ⊢
    linear_combination solved + k * first - k * second
  · intro solved
    exact ⟨p, contained, solved⟩

end Figure

end SolidGeometry
