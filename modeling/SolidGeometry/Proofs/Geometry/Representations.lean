import SolidGeometry.Proofs.Geometry.Directions
import SolidGeometry.Proofs.Geometry.ExactElements
import SolidGeometry.Proofs.Geometry.Projecting

namespace SolidGeometry

namespace Point

theorem at_scale (p : Point) (factor : Rat) (i : Axis) :
    (p.scale factor).at i = p.at i * factor := by
  cases i <;> rfl

theorem scale_scale (p : Point) (s t : Rat) : (p.scale s).scale t = p.scale (s * t) := by
  ext <;> simp only [scale, mul_assoc]

theorem scale_cross (p q : Point) (factor : Rat) :
    (p.scale factor).cross q = (p.cross q).scale factor := by
  ext <;> simp only [cross, scale] <;> ring

theorem scale_ne_zero {p : Point} {factor : Rat} (proper : p ≠ 0) (nonzero : factor ≠ 0) :
    p.scale factor ≠ 0 := by
  intro vanishes
  have square : (p.scale factor).dot (p.scale factor) = 0 := by
    rw [vanishes, zero_dot]
  rw [scale_dot, dot_scale] at square
  exact mul_ne_zero (mul_ne_zero (dot_self_ne_zero proper) nonzero) nonzero square

theorem cross_swap (p q : Point) : p.cross q = (q.cross p).scale (-1) := by
  ext <;> simp only [cross, scale] <;> ring

end Point

section

variable {b c m n p r : Point} {d e k : Rat} (nonzero : k ≠ 0)

include nonzero

theorem Point.pivot_scale (p : Point) : (p.scale k).pivot = p.pivot := by
  simp only [pivot, scale, ne_eq, mul_eq_zero, nonzero, or_false]

/-- The foot of a vector on a normal, as a multiple of the normal. -/
theorem Point.along_scale (n : Point) (height : Rat) :
    (n.scale k).scale (height * k / (n.scale k).dot (n.scale k)) = n.scale (height / n.dot n) := by
  rw [scale_scale, scale_dot, dot_scale, mul_div_mul_right _ _ nonzero, mul_div_assoc',
    mul_comm k height, mul_div_mul_right _ _ nonzero]

theorem Point.foot_scale : (n.scale k).foot (d * k) p = n.foot d p := by
  rw [foot, foot, ← along_scale nonzero n, scale_dot n p, add_mul]

namespace Figure

theorem piercing_scale : piercing b r (n.scale k) (d * k) = piercing b r n d := by
  have slope : (n.scale k).dot r = 0 ↔ n.dot r = 0 := by
    rw [Point.scale_dot, mul_eq_zero, or_iff_left nonzero]
  have height : (n.scale k).dot b + d * k = (n.dot b + d) * k := by
    rw [Point.scale_dot, add_mul]
  have level : (n.dot b + d) * k = 0 ↔ n.dot b + d = 0 := by
    rw [mul_eq_zero, or_iff_left nonzero]
  have parameter : -((n.dot b + d) * k) / (n.scale k).dot r = -(n.dot b + d) / n.dot r := by
    rw [Point.scale_dot, ← neg_mul, mul_div_mul_right _ _ nonzero]
  simp only [piercing, slope, height, level, parameter]

theorem shadow_scale : shadow b r (n.scale k) (d * k) = shadow b r n d := by
  simp only [shadow, anchor, piercing_scale nonzero, Point.foot_scale nonzero, Point.dot_scale r n,
    Point.along_scale nonzero]

theorem seam_scale : seam (m.scale k) (d * k) n e = seam m d n e := by
  have minor (x y z : Rat) : (x * k * e - y * (d * k)) / (z * k) = (x * e - y * d) / z := by
    rw [← mul_div_mul_right _ z nonzero]
    ring
  have minor' (x y z : Rat) : (y * (d * k) - x * k * e) / (z * k) = (y * d - x * e) / z := by
    rw [← mul_div_mul_right _ z nonzero]
    ring
  have unit (z : Rat) : k * (z * k)⁻¹ = z⁻¹ := by
    rw [mul_inv_rev, mul_inv_cancel_left₀ nonzero]
  simp only [seam, Point.scale_cross, Point.pivot_scale nonzero, Point.at_scale, Point.scale_scale,
    minor, minor', unit]

end Figure

end

theorem Figure.seam_comm (m n : Point) (d e : Rat) : seam m d n e = seam n e m d := by
  have minor (x y z : Rat) : (x - y) / (z * -1) = (y - x) / z := by
    rw [mul_neg_one, div_neg, ← neg_div, neg_sub]
  have unit (z : Rat) : -1 * (z * -1)⁻¹ = z⁻¹ := by
    rw [mul_neg_one, inv_neg, neg_one_mul, neg_neg]
  simp only [seam, Point.cross_swap m n, Point.pivot_scale (neg_ne_zero.mpr one_ne_zero),
    Point.at_scale, Point.scale_scale, minor, unit]

/-- An operation has a value that shows a figure, or none. -/
def Operation.Gives (o : Operation) (a b : Element) (F : Option Figure) : Prop :=
  ∃ v, (operate o.label a b).result = .ok v ∧ v.Shows F

/-- An operation has numerically equal values for two elements with a third one, which is the second
or the first operand. -/
structure Operation.Agrees (o : Operation) (a b c : Element) : Prop where
  before : ∃ v w, (operate o.label a c).result = .ok v ∧ (operate o.label b c).result = .ok w ∧
    v.eqv w = true
  behind : ∃ v w, (operate o.label c a).result = .ok v ∧ (operate o.label c b).result = .ok w ∧
    v.eqv w = true

section

variable {o : Operation} {a b c f g : Element} {F G : Option Figure} {m : Computation Value}
  {value : Value}

theorem Operation.gives_of_method (first : a.toEquation = .ok f) (second : b.toEquation = .ok g)
    (supported : o.method? (Operands.inOrder f g).first (Operands.inOrder f g).second = some m)
    (returns : m.result = .ok value) (shows : value.Shows F) : o.Gives a b F :=
  ⟨value, (operate_eq_ok first second).mpr ⟨m, supported, returns⟩, shows⟩

theorem Operation.agrees_of_gives (first : o.Gives a c F ∧ o.Gives c a G)
    (second : o.Gives b c F ∧ o.Gives c b G) : o.Agrees a b c := by
  obtain ⟨⟨v, v_result, v_shows⟩, x, x_result, x_shows⟩ := first
  obtain ⟨⟨w, w_result, w_shows⟩, y, y_result, y_shows⟩ := second
  exact ⟨⟨v, w, v_result, w_result, v_shows.eqv w_shows⟩,
    ⟨x, y, x_result, y_result, x_shows.eqv y_shows⟩⟩

end

section

variable {X Y : Element} {l : Line} {v : Vector} {b m n p r : Point} {d e : Rat}

variable (depicts : X.Depicts (.plane n d))

include depicts

theorem intersection_gives_line (line : l.Denotes b r) :
    Operation.intersection.Gives X (.line l) (Figure.piercing b r n d) ∧
      Operation.intersection.Gives (.line l) X (Figure.piercing b r n d) := by
  obtain ⟨P, equation, plane, -⟩ := depicts.exists_plane
  obtain ⟨o, met, shows⟩ := Plane.intersectionWithLine_exact line plane
  have returns := ((Noted.Quiet.of_eq met).map fun o => o.elim Value.none Value.element).result
  exact ⟨Operation.gives_of_method equation rfl rfl returns (Element.Shows.value shows),
    Operation.gives_of_method rfl equation rfl returns (Element.Shows.value shows)⟩

theorem intersection_gives_plane (other : Y.Depicts (.plane m e)) (independent : n.cross m ≠ 0) :
    Operation.intersection.Gives X Y (some (Figure.seam n d m e)) := by
  obtain ⟨P, P_equation, P_denotes, -⟩ := depicts.exists_plane
  obtain ⟨Q, Q_equation, Q_denotes, -⟩ := other.exists_plane
  obtain ⟨k, met, shows⟩ := Plane.intersection_exact P_denotes Q_denotes independent
  have returns := ((Noted.Quiet.of_eq met).map fun o => o.elim Value.none Value.element).result
  exact Operation.gives_of_method P_equation Q_equation rfl returns (.element shows)

theorem projection_gives_point (point : v.value? = some p) :
    Operation.projection.Gives X (.vector v) (some (.point (n.foot d p))) ∧
      Operation.projection.Gives (.vector v) X (some (.point (n.foot d p))) := by
  obtain ⟨P, equation, plane, proper⟩ := depicts.exists_plane
  obtain ⟨w, dropped, w_value⟩ := Plane.foot_exact proper plane point
  have returns := (((Noted.Quiet.of_eq dropped).map Element.vector).map Value.element).result
  exact ⟨Operation.gives_of_method equation rfl rfl returns (.element (.vector w_value)),
    Operation.gives_of_method rfl equation rfl returns (.element (.vector w_value))⟩

theorem projection_gives_line (line : l.Denotes b r) :
    Operation.projection.Gives X (.line l) (some (Figure.shadow b r n d)) ∧
      Operation.projection.Gives (.line l) X (some (Figure.shadow b r n d)) := by
  obtain ⟨P, equation, plane, proper⟩ := depicts.exists_plane
  obtain ⟨e, projected, shows⟩ := Plane.projectionOfLine_exact proper plane line
  have returns := ((Noted.Quiet.of_eq projected).map Value.element).result
  exact ⟨Operation.gives_of_method equation rfl rfl returns (.element shows),
    Operation.gives_of_method rfl equation rfl returns (.element shows)⟩

end

section

variable {X A y : Element} {n m : Point} {d e k : Rat} (nonzero : k ≠ 0)
  (depicts : X.Depicts (.plane (n.scale k) (d * k))) (original : A.Depicts (.plane n d))

include nonzero depicts original

theorem intersection_agrees_line (exact : y.IsExact) (line : y.kind = .line) :
    Operation.intersection.Agrees X A y := by
  cases y with
  | line l =>
    obtain ⟨b, r, denotes⟩ := Element.isExact_line.mp exact
    have gives := intersection_gives_line depicts denotes
    rw [Figure.piercing_scale nonzero] at gives
    exact Operation.agrees_of_gives gives (intersection_gives_line original denotes)
  | _ => cases line

theorem intersection_agrees_plane (other : y.Depicts (.plane m e)) (independent : n.cross m ≠ 0) :
    Operation.intersection.Agrees X A y := by
  have scaled : (n.scale k).cross m ≠ 0 := by
    rw [Point.scale_cross]
    exact Point.scale_ne_zero independent nonzero
  have turned : m.cross n ≠ 0 := independent ∘ Point.cross_eq_zero_comm.mp
  have turned_scaled : m.cross (n.scale k) ≠ 0 := scaled ∘ Point.cross_eq_zero_comm.mp
  have front := intersection_gives_plane depicts other scaled
  have back := intersection_gives_plane other depicts turned_scaled
  rw [Figure.seam_scale nonzero] at front
  rw [Figure.seam_comm, Figure.seam_scale nonzero, Figure.seam_comm] at back
  exact Operation.agrees_of_gives ⟨front, back⟩
    ⟨intersection_gives_plane original other independent,
      intersection_gives_plane other original turned⟩

theorem projection_agrees (exact : y.IsExact) (narrow : y.kind = .vector ∨ y.kind = .line) :
    Operation.projection.Agrees X A y := by
  cases y with
  | vector v =>
    obtain ⟨p, value⟩ := Element.isExact_vector.mp exact
    have gives := projection_gives_point depicts value
    rw [Point.foot_scale nonzero] at gives
    exact Operation.agrees_of_gives gives (projection_gives_point original value)
  | line l =>
    obtain ⟨b, r, denotes⟩ := Element.isExact_line.mp exact
    have gives := projection_gives_line depicts denotes
    rw [Figure.shadow_scale nonzero] at gives
    exact Operation.agrees_of_gives gives (projection_gives_line original denotes)
  | plane P => rcases narrow with narrow | narrow <;> cases narrow
  | span S => rcases narrow with narrow | narrow <;> cases narrow

end

/-- An exact plane by its equation may be replaced by what is made of it by directions, and by every
exact plane whose equation is a multiple of it. Its intersections with lines and with planes of
other directions and the projections of points and lines on it stay numerically equal, on either
side of the other operand. -/
theorem representations_agree {P : Plane} {n : Point} {d : Rat} (plane : P.Denotes n d)
    (proper : n ≠ 0) :
    (∃ S k, P.toSpan.Quiet S ∧ k ≠ 0 ∧ (Element.span S).Depicts (.plane (n.scale k) (d * k))) ∧
      ∀ X k, k ≠ 0 → X.Depicts (.plane (n.scale k) (d * k)) → ∀ y : Element,
        (y.IsExact ∧ y.kind = .line ∨ (∃ m e, y.Depicts (.plane m e) ∧ n.cross m ≠ 0) →
          Operation.intersection.Agrees X (.plane P) y) ∧
        (y.IsExact ∧ (y.kind = .vector ∨ y.kind = .line) →
          Operation.projection.Agrees X (.plane P) y) := by
  have original : (Element.plane P).Depicts (.plane n d) := .plane plane proper
  constructor
  · obtain ⟨S, base, first, second, converted, spans, frames⟩ := plane.toSpan proper
    obtain ⟨k, nonzero, crossed⟩ := frames.perpendicular
    have independent : first.cross second ≠ 0 := by
      rw [crossed]
      exact Point.scale_ne_zero proper nonzero
    have depicts := Element.Depicts.span spans independent
    have offset : -base.dot (first.cross second) = d * k := by
      have contained := frames.onPlane
      rw [crossed, Point.dot_scale, Point.dot_comm, ← neg_mul,
        neg_eq_of_add_eq_zero_right contained]
    rw [offset, crossed] at depicts
    exact ⟨S, k, by rw [converted]; exact .pure S, nonzero, depicts⟩
  · intro X k nonzero depicts y
    refine ⟨?_, fun ⟨exact, narrow⟩ => projection_agrees nonzero depicts original exact narrow⟩
    rintro (⟨exact, line⟩ | ⟨m, e, other, independent⟩)
    · exact intersection_agrees_line nonzero depicts original exact line
    · exact intersection_agrees_plane nonzero depicts original other independent

/-- A plane by its intercepts in place of its equation. -/
theorem representations_agree_intercepts :
    Operation.intersection.Agrees (.span ⟨⟨6, 0, 0⟩, ⟨.int (-6), 3, 0⟩, ⟨.int (-6), 0, 2⟩⟩)
        (.plane ⟨⟨1, 2, 3⟩, .int (-6)⟩) (.plane ⟨⟨0, 0, .ratio (1 / 2)⟩, 1⟩) ∧
      Operation.projection.Agrees (.span ⟨⟨6, 0, 0⟩, ⟨.int (-6), 3, 0⟩, ⟨.int (-6), 0, 2⟩⟩)
        (.plane ⟨⟨1, 2, 3⟩, .int (-6)⟩) (.line ⟨⟨0, 0, 0⟩, ⟨1, .ratio (1 / 3), 0⟩⟩) := by
  have plane : Plane.Denotes ⟨⟨1, 2, 3⟩, .int (-6)⟩ ⟨1, 2, 3⟩ (-6) := ⟨rfl, rfl⟩
  have span : Span.Denotes ⟨⟨6, 0, 0⟩, ⟨.int (-6), 3, 0⟩, ⟨.int (-6), 0, 2⟩⟩ ⟨6, 0, 0⟩ ⟨-6, 3, 0⟩
      ⟨-6, 0, 2⟩ := ⟨rfl, rfl, rfl⟩
  have other : Plane.Denotes ⟨⟨0, 0, .ratio (1 / 2)⟩, 1⟩ ⟨0, 0, 1 / 2⟩ 1 := ⟨rfl, rfl⟩
  have depicts : (Element.span ⟨⟨6, 0, 0⟩, ⟨.int (-6), 3, 0⟩, ⟨.int (-6), 0, 2⟩⟩).Depicts
      (.plane (Point.scale ⟨1, 2, 3⟩ 6) (-6 * 6)) := by
    have normal : Point.cross ⟨-6, 3, 0⟩ ⟨-6, 0, 2⟩ = Point.scale ⟨1, 2, 3⟩ 6 := by decide +kernel
    have offset : -Point.dot ⟨6, 0, 0⟩ (Point.scale ⟨1, 2, 3⟩ 6) = -6 * 6 := by decide +kernel
    have framed := Element.Depicts.span span (by decide +kernel)
    rwa [normal, offset] at framed
  obtain ⟨-, agree⟩ := representations_agree plane (by decide +kernel)
  constructor
  · have meets := (agree _ 6 (by decide +kernel) depicts (.plane ⟨⟨0, 0, .ratio (1 / 2)⟩, 1⟩)).1
    exact meets (.inr ⟨_, _, .plane other (by decide +kernel), by decide +kernel⟩)
  · have projects := (agree _ 6 (by decide +kernel) depicts
      (.line ⟨⟨0, 0, 0⟩, ⟨1, .ratio (1 / 3), 0⟩⟩)).2
    exact projects ⟨Element.isExact_line.mpr ⟨_, _, rfl, rfl⟩, .inr rfl⟩

end SolidGeometry
