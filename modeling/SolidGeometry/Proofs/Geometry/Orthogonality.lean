import SolidGeometry.Proofs.Geometry.Shadows

namespace SolidGeometry

/-- The one point of a set that is nearest to a point. -/
structure Nearest (S : Point → Prop) (p q : Point) : Prop where
  contained : S q
  least : ∀ x, S x → (p - q).dot (p - q) ≤ (p - x).dot (p - x)
  unique : ∀ x, S x → (p - x).dot (p - x) = (p - q).dot (p - q) → x = q

section

variable {S : Point → Prop} {n p q x : Point} {d t : Rat}

theorem Point.dot_self_of_perpendicular (perpendicular : (p - q).dot (q - x) = 0) :
    (p - x).dot (p - x) = (p - q).dot (p - q) + (q - x).dot (q - x) := by
  simp only [dot, sub_x, sub_y, sub_z] at perpendicular ⊢
  linear_combination 2 * perpendicular

/-- The point of a set above which a point lies at right angles is the nearest one. -/
theorem Nearest.of_perpendicular (contained : S q)
    (perpendicular : ∀ x, S x → (p - q).dot (q - x) = 0) : Nearest S p q where
  contained := contained
  least x member := by
    rw [Point.dot_self_of_perpendicular (perpendicular x member)]
    exact le_add_of_nonneg_right (Point.dot_self_nonneg _)
  unique x member same := by
    rw [Point.dot_self_of_perpendicular (perpendicular x member), add_eq_left,
      Point.dot_self_eq_zero, Point.sub_eq_iff, Point.add_zero] at same
    exact same.symm

namespace Point

theorem sub_foot (n : Point) (d : Rat) (p : Point) :
    p - n.foot d p = n.scale ((n.dot p + d) / n.dot n) := by
  rw [foot]
  ext <;> simp

theorem contains_foot (proper : n ≠ 0) (d : Rat) (p : Point) : n.dot (n.foot d p) + d = 0 := by
  rw [foot, dot_sub, dot_scale, mul_div_cancel₀ _ (dot_self_ne_zero proper)]
  ring

theorem foot_perpendicular (proper : n ≠ 0) (contained : n.dot x + d = 0) :
    (p - n.foot d p).dot (n.foot d p - x) = 0 := by
  have level : n.dot (n.foot d p - x) = 0 := by
    rw [dot_sub]
    linear_combination contains_foot proper d p - contained
  rw [sub_foot, scale_dot, level, zero_mul]

end Point

theorem Plane.Denotes.nearest_foot {P : Plane} (plane : P.Denotes n d) (proper : n ≠ 0) :
    Nearest P.Contains p (n.foot d p) := by
  refine .of_perpendicular (plane.contains_iff.mpr (Point.contains_foot proper d p)) ?_
  intro x contained
  exact Point.foot_perpendicular proper (plane.contains_iff.mp contained)

namespace Point

/-- The part of a vector along a direction. -/
def along (b a : Point) : Point := b.scale (a.dot b / b.dot b)

variable {a b : Point}

theorem flat_dot (proper : b ≠ 0) (a : Point) : (b.flat a).dot b = 0 := by
  rw [dot_comm, flat, dot_sub, dot_scale, mul_div_cancel₀ _ (dot_self_ne_zero proper), dot_comm]
  ring

theorem along_along (proper : b ≠ 0) (a : Point) : b.along (b.along a) = b.along a := by
  rw [along, along, scale_dot, mul_div_cancel_left₀ _ (dot_self_ne_zero proper)]

theorem along_perpendicular (proper : b ≠ 0) (a : Point) (t : Rat) :
    (a - b.along a).dot (b.along a - b.scale t) = 0 := by
  change (b.flat a).dot (b.along a - b.scale t) = 0
  rw [dot_sub, along, dot_scale, dot_scale, flat_dot proper]
  ring

end Point

theorem nearest_along {a b : Point} (proper : b ≠ 0) :
    Nearest (fun x => ∃ t, x = b.scale t) a (b.along a) := by
  refine .of_perpendicular ⟨_, rfl⟩ ?_
  rintro _ ⟨t, rfl⟩
  exact Point.along_perpendicular proper a t

end

/-- An operation has a value for two elements in the order of their kinds, whether or not they are
brought into it first, and leaves no warning. -/
structure Operation.Delivers (o : Operation) (a b : Element) (value : Value) : Prop where
  method : (runMethod o.label a b).Quiet value
  operation : (operate o.label a b).Quiet value

section

variable {o : Operation} {f g : Element} {m : Computation Value} {value : Value}

theorem Operation.delivers_of_method (first : f.toEquation = .ok f) (second : g.toEquation = .ok g)
    (ordered : (Operands.inOrder f g).first = f ∧ (Operands.inOrder f g).second = g)
    (f_proper : f.degeneracy? = none) (g_proper : g.degeneracy? = none)
    (supported : o.method? f g = some m) (quiet : m.Quiet value) : o.Delivers f g value := by
  have alike := operate_alike o.label first second
  rw [ordered.1, ordered.2] at alike
  obtain ⟨result, warnings⟩ := runMethod_of_method supported
  rw [f_proper, g_proper, quiet.warnings] at warnings
  have run : (runMethod o.label f g).Quiet value := ⟨result.trans quiet.result, warnings⟩
  exact ⟨run, alike.quiet run⟩

end

section

variable {u v : Vector} {P : Plane} {a b n p : Point} {d : Rat}

theorem Vector.projection_exact (left : u.value? = some a) (right : v.value? = some b)
    (proper : b ≠ 0) : ∃ w, u.projection v = ⟨[], .ok w⟩ ∧ w.value? = some (b.along a) := by
  obtain ⟨product, multiplied, product_value⟩ := dot_exact left right
  obtain ⟨square, squared, square_value⟩ := dot_exact right right
  obtain ⟨t, divided, t_value⟩ :=
    Scalar.divide_exact product_value square_value (Point.dot_self_ne_zero proper)
  obtain ⟨w, scaled, w_value⟩ := scale_exact right t_value
  refine ⟨w, ?_, w_value⟩
  simp only [projection, multiplied, squared, divided, scaled, Noted.lift_ok, Noted.done_bind]

theorem Vector.delivers_along (left : u.value? = some a) (right : v.value? = some b)
    (proper : b ≠ 0) : ∃ w : Vector,
    Operation.projection.Delivers (.vector u) (.vector v) (.element (.vector w)) ∧
      w.value? = some (b.along a) := by
  obtain ⟨w, projected, w_value⟩ := projection_exact left right proper
  refine ⟨w, ?_, w_value⟩
  exact Operation.delivers_of_method rfl rfl ⟨rfl, rfl⟩ rfl rfl rfl
    (((Noted.Quiet.of_eq projected).map Element.vector).map Value.element)

theorem Plane.delivers_foot (plane : P.Denotes n d) (proper : n ≠ 0) (point : v.value? = some p) :
    ∃ w : Vector, Operation.projection.Delivers (.plane P) (.vector v) (.element (.vector w)) ∧
      w.value? = some (n.foot d p) := by
  obtain ⟨w, dropped, w_value⟩ := foot_exact proper plane point
  refine ⟨w, ?_, w_value⟩
  exact Operation.delivers_of_method rfl rfl ⟨rfl, rfl⟩
    (Element.Depicts.plane plane proper).degeneracy?_eq rfl rfl
    (((Noted.Quiet.of_eq dropped).map Element.vector).map Value.element)

end

/-- The projection of an exact point on an exact plane with a normal is the one point of the plane
that is nearest to it, right below it along the normal, and the projection of an exact vector on an
exact direction is the one multiple of the direction nearest to it, with a remainder at right angles
to the direction. Both are found without a warning, and are their own projections. -/
theorem projection_of_point :
    (∀ (P : Plane) (v : Vector) (n p : Point) (d : Rat), P.Denotes n d → n ≠ 0 →
      v.value? = some p → ∃ w q,
        Operation.projection.Delivers (.plane P) (.vector v) (.element (.vector w)) ∧
          w.value? = some q ∧ n.dot q + d = 0 ∧ (∃ t, p - q = n.scale t) ∧
          Nearest P.Contains p q ∧ ∃ w',
            Operation.projection.Delivers (.plane P) (.vector w) (.element (.vector w')) ∧
              w'.value? = some q) ∧
    ∀ (u v : Vector) (a b : Point), u.value? = some a → v.value? = some b → b ≠ 0 → ∃ w q,
      Operation.projection.Delivers (.vector u) (.vector v) (.element (.vector w)) ∧
        w.value? = some q ∧ (∃ t, q = b.scale t) ∧ (a - q).dot b = 0 ∧
        Nearest (fun x => ∃ s, x = b.scale s) a q ∧ ∃ w',
          Operation.projection.Delivers (.vector w) (.vector v) (.element (.vector w')) ∧
            w'.value? = some q := by
  constructor
  · intro P v n p d plane proper point
    obtain ⟨w, delivers, w_value⟩ := Plane.delivers_foot plane proper point
    obtain ⟨w', again, w'_value⟩ := Plane.delivers_foot plane proper w_value
    have contained := Point.contains_foot proper d p
    rw [Point.foot_of_contained contained] at w'_value
    exact ⟨w, _, delivers, w_value, contained, ⟨_, Point.sub_foot n d p⟩, plane.nearest_foot proper,
      w', again, w'_value⟩
  · intro u v a b left right proper
    obtain ⟨w, delivers, w_value⟩ := Vector.delivers_along left right proper
    obtain ⟨w', again, w'_value⟩ := Vector.delivers_along w_value right proper
    rw [Point.along_along proper] at w'_value
    exact ⟨w, _, delivers, w_value, ⟨_, rfl⟩, Point.flat_dot proper a, nearest_along proper,
      w', again, w'_value⟩

/-- A point that is dropped on a plane off the origin, and a vector on a slanted direction. -/
theorem projection_of_point_slanted :
    (∃ w q, Operation.projection.Delivers (.plane ⟨⟨.ratio (1 / 3), .ratio (-2 / 3), 1⟩, 5⟩)
        (.vector ⟨1, .ratio (1 / 2), 7⟩) (.element (.vector w)) ∧ w.value? = some q ∧
      Nearest (Plane.Contains ⟨⟨.ratio (1 / 3), .ratio (-2 / 3), 1⟩, 5⟩) ⟨1, 1 / 2, 7⟩ q) ∧
    ∃ w q, Operation.projection.Delivers (.vector ⟨1, .ratio (1 / 2), 7⟩)
        (.vector ⟨2, .int (-4), 6⟩) (.element (.vector w)) ∧ w.value? = some q ∧
      Nearest (fun x => ∃ s, x = Point.scale ⟨2, -4, 6⟩ s) ⟨1, 1 / 2, 7⟩ q := by
  have plane : Plane.Denotes ⟨⟨.ratio (1 / 3), .ratio (-2 / 3), 1⟩, 5⟩ ⟨1 / 3, -2 / 3, 1⟩ 5 :=
    ⟨rfl, rfl⟩
  constructor
  · obtain ⟨w, q, delivers, value, -, -, nearest, -⟩ :=
      projection_of_point.1 _ ⟨1, .ratio (1 / 2), 7⟩ _ ⟨1, 1 / 2, 7⟩ _ plane (by decide +kernel) rfl
    exact ⟨w, q, delivers, value, nearest⟩
  · obtain ⟨w, q, delivers, value, -, -, nearest, -⟩ :=
      projection_of_point.2 ⟨1, .ratio (1 / 2), 7⟩ ⟨2, .int (-4), 6⟩ ⟨1, 1 / 2, 7⟩ ⟨2, -4, 6⟩ rfl rfl
        (by decide +kernel)
    exact ⟨w, q, delivers, value, nearest⟩

end SolidGeometry
