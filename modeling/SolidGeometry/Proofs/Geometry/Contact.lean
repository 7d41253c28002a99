import SolidGeometry.Proofs.Geometry.Angles
import SolidGeometry.Proofs.Geometry.Depiction

namespace SolidGeometry
open Number

/-- The measured quotient of a height and the root of a square tells whether the height is zero. -/
def Discerns (height square : Rat) : Prop :=
  if height = 0 then ¬Vanishes square else ¬TakenForZero height square

/-- The measured distance of a point from a line tells whether the line contains it. -/
def LineDiscerns (base direction p : Point) : Prop :=
  if direction.cross (p - base) = 0 then ¬Vanishes (direction.dot direction)
  else ¬(¬Vanishes (direction.dot direction) ∧
    Vanishes ((direction.cross (p - base)).dot (direction.cross (p - base))))

def Point.greatestAxis (p : Point) : Axis :=
  [Axis.y, Axis.z].foldl (fun best i => if |p.at best| < |p.at i| then i else best) .x

/-- The point of a plane on the axis of the greatest component of its normal. -/
def Point.onAxis (normal : Point) (offset : Rat) : Point :=
  (Point.unit normal.greatestAxis).scale (-offset / normal.at normal.greatestAxis)

/-- The measured distance of two figures tells whether they touch. -/
def Figure.Discerned : Figure → Figure → Prop
  | point p, point q => p = q ∨ ¬Vanishes ((q - p).dot (q - p))
  | line b r, point p | point p, line b r => LineDiscerns b r p
  | line b r, line c s =>
    if r.cross s = 0 then LineDiscerns b r c
    else Discerns ((r.cross s).dot (c - b)) ((r.cross s).dot (r.cross s))
  | plane n d, point p | point p, plane n d => Discerns (n.dot p + d) (n.dot n)
  | line b r, plane n d | plane n d, line b r =>
    if n.dot r = 0 then Discerns (n.dot b + d) (n.dot n)
    else TakenForParallel n r → TakenForZero (n.dot b + d) (n.dot n)
  | plane m c, plane n d =>
    if m.cross n = 0 then Discerns (n.dot (m.onAxis c) + d) (n.dot n)
    else TakenForAligned m n → TakenForZero (n.dot (m.onAxis c) + d) (n.dot n)

section

variable {u v : Vector} {p q b c r s m n : Point} {d e : Rat} {l k : Line} {P Q : Plane} {x : Float}
  {a : Scalar}

theorem Vector.discerned_point (first : u.value? = some p) (second : v.value? = some q)
    (returns : u.distance v = .ok x) :
    ((Scalar.float x).isZero = true ↔ (Figure.point p).Touches (.point q)) ↔
      (Figure.point p).Discerned (.point q) := by
  have touches : (Figure.point p).Touches (.point q) ↔ p = q :=
    (Figure.point_touches _).trans eq_comm
  have level : p = q → Vanishes ((q - p).dot (q - p)) := by
    rintro rfl
    rw [Point.sub_self, Point.zero_dot]
    exact vanishes_zero
  rw [isZero_distance first second returns, touches, Figure.Discerned]
  by_cases same : p = q
  · exact iff_of_true (iff_of_true (level same) same) (.inl same)
  · simp [same]

theorem discerns_of_height {height : Rat} (exact : a.rational? = some height)
    (divisor : v.value? = some n) (measured : v.length = .ok x) {c : Scalar}
    (returns : (a.abs.divide (.float x)).result = .ok c) :
    (c.isZero = true ↔ TakenForZero height (n.dot n)) ∧
      ((c.isZero = true ↔ height = 0) ↔ Discerns height (n.dot n)) := by
  obtain ⟨zero, level⟩ := isZero_of_height exact divisor measured returns
  refine ⟨zero, ?_⟩
  rw [zero, Discerns]
  by_cases flat : height = 0
  · rw [if_pos flat, iff_true_right flat]
    exact and_iff_left (level flat)
  · rw [if_neg flat, iff_false_right flat]

theorem Line.discerned_point (denotes : l.Denotes b r) (nonzero : r ≠ 0)
    (point : v.value? = some p) (returns : (l.distanceToPoint v).result = .ok a) :
    (a.isZero = true ↔ (Figure.line b r).Touches (.point p)) ↔
      (Figure.line b r).Discerned (.point p) := by
  rw [isZero_distanceToPoint denotes.base denotes.direction point returns, Figure.point_touches,
    Figure.line_contains_iff nonzero, Figure.Discerned, LineDiscerns]
  by_cases contained : r.cross (p - b) = 0
  · simp [contained, vanishes_zero]
  · simp [contained]

theorem Line.discerned_line (first : l.Denotes b r) (second : k.Denotes c s) (r_nonzero : r ≠ 0)
    (returns : (l.distance k).result = .ok a) :
    (a.isZero = true ↔ (Figure.line b r).Touches (.line c s)) ↔
      (Figure.line b r).Discerned (.line c s) := by
  obtain ⟨normal, crossed, normal_value⟩ := Vector.cross_exact first.direction second.direction
  have parallel := Vector.isZero_of_exact normal_value
  rw [distance, crossed] at returns
  simp only [Noted.lift_ok, Noted.done_bind, parallel, decide_eq_true_iff] at returns
  rw [Figure.Discerned]
  split at returns
  · rename_i same
    have along := discerned_point first r_nonzero second.base returns
    rw [Figure.point_touches, Figure.line_contains_iff r_nonzero] at along
    rw [Figure.line_touches_parallel r_nonzero same, if_pos same]
    exact along
  · rename_i independent
    obtain ⟨gap, moved, gap_value⟩ := Vector.between_exact first.base second.base
    obtain ⟨volume, multiplied, volume_value⟩ := Vector.dot_exact normal_value gap_value
    rw [moved] at returns
    simp only [Noted.lift_ok, Noted.done_bind, multiplied, Noted.result_bind, Noted.result_lift]
      at returns
    obtain ⟨length, measured, divided⟩ := returns
    rw [Figure.line_touches_line independent, if_neg independent]
    exact (discerns_of_height volume_value normal_value measured divided).2

theorem Plane.isZero_distanceToPoint (denotes : P.Denotes n d) (point : v.value? = some p)
    (returns : (P.distanceToPoint v).result = .ok a) :
    (a.isZero = true ↔ TakenForZero (n.dot p + d) (n.dot n)) ∧
      ((a.isZero = true ↔ n.dot p + d = 0) ↔ Discerns (n.dot p + d) (n.dot n)) := by
  obtain ⟨product, multiplied, product_value⟩ := Vector.dot_exact denotes.normal point
  obtain ⟨height, added, height_value⟩ := Scalar.add_exact product_value denotes.offset
  rw [distanceToPoint, multiplied] at returns
  simp only [Noted.lift_ok, Noted.done_bind, added, Noted.result_bind, Noted.result_lift] at returns
  obtain ⟨length, measured, divided⟩ := returns
  exact discerns_of_height height_value denotes.normal measured divided

theorem Plane.discerned_point (denotes : P.Denotes n d) (point : v.value? = some p)
    (returns : (P.distanceToPoint v).result = .ok a) :
    (a.isZero = true ↔ (Figure.plane n d).Touches (.point p)) ↔
      (Figure.plane n d).Discerned (.point p) := by
  rw [Figure.point_touches]
  exact (isZero_distanceToPoint denotes point returns).2

theorem Plane.discerned_line (first : P.Denotes n d) (second : l.Denotes b r) (n_nonzero : n ≠ 0)
    (r_nonzero : r ≠ 0) (returns : (P.distanceToLine l).result = .ok a) :
    (a.isZero = true ↔ (Figure.line b r).Touches (.plane n d)) ↔
      (Figure.line b r).Discerned (.plane n d) := by
  simp only [distanceToLine, Noted.result_bind, Noted.result_lift] at returns
  obtain ⟨angle, found, measured⟩ := returns
  rw [Vector.angleToPlane_congr first.normal second.direction] at found
  rw [Figure.line_touches_plane, Figure.Discerned]
  split at measured
  · rename_i taken
    have parallel : TakenForParallel n r := ⟨angle, found, taken⟩
    obtain ⟨zero, discerned⟩ := isZero_distanceToPoint first second.base measured
    by_cases flat : n.dot r = 0
    · simpa [flat] using discerned
    · simpa [flat, parallel] using zero
  · rename_i slanted
    have open_angle : ¬TakenForParallel n r := by
      rintro ⟨other, same, taken⟩
      cases found.symm.trans same
      exact slanted taken
    have slope : n.dot r ≠ 0 := fun flat =>
      open_angle (takenForParallel_of_dot n_nonzero r_nonzero flat)
    cases measured
    simp [isZero_zero, slope, open_angle]

theorem Vector.greatestAxis_exact (exact : v.value? = some p) :
    v.greatestAxis = p.greatestAxis := by
  have less : ∀ i j, (v.at i).abs.less (v.at j).abs = decide (|p.at i| < |p.at j|) := fun i j =>
    Scalar.less_of_exact (Scalar.abs_exact (at_exact exact i)) (Scalar.abs_exact (at_exact exact j))
  simp only [greatestAxis, Point.greatestAxis, less, decide_eq_true_eq]

theorem Point.le_greatestAxis (p : Point) (axis : Axis) : |p.at axis| ≤ |p.at p.greatestAxis| := by
  simp only [greatestAxis, List.foldl_cons, List.foldl_nil]
  by_cases second : |p.at .x| < |p.at .y|
  · rw [if_pos second]
    by_cases third : |p.at .y| < |p.at .z|
    · rw [if_pos third]
      cases axis <;> linarith
    · rw [if_neg third]
      cases axis <;> linarith
  · rw [if_neg second]
    by_cases third : |p.at .x| < |p.at .z|
    · rw [if_pos third]
      cases axis <;> linarith
    · rw [if_neg third]
      cases axis <;> linarith

theorem Point.at_greatestAxis_ne_zero (nonzero : p ≠ 0) : p.at p.greatestAxis ≠ 0 := by
  intro none
  have vanishes (axis : Axis) : p.at axis = 0 := by
    have bound := p.le_greatestAxis axis
    rw [none, abs_zero] at bound
    exact abs_nonpos_iff.mp bound
  exact nonzero (Point.ext (vanishes .x) (vanishes .y) (vanishes .z))

theorem Point.dot_unit (p : Point) (axis : Axis) : p.dot (unit axis) = p.at axis := by
  cases axis <;> simp [dot, unit, Point.at]

theorem Point.dot_onAxis (nonzero : n ≠ 0) (d : Rat) : n.dot (n.onAxis d) + d = 0 := by
  have proper := at_greatestAxis_ne_zero nonzero
  rw [onAxis, dot_scale, dot_unit]
  field_simp
  ring

theorem Vector.value?_ofAxes {h : Scalar} {q : Rat} (exact : h.rational? = some q) (axis : Axis) :
    (Vector.ofAxes fun i => if i = axis then h else 0).value? =
      some ((Point.unit axis).scale q) := by
  have zero : (0 : Scalar).rational? = some 0 := rfl
  cases axis <;> simp [ofAxes, value?_eq_some, Point.scale, Point.unit, exact, zero]

theorem Plane.axisPoint_exact (denotes : P.Denotes n d) (nonzero : n ≠ 0) :
    ∃ w, P.axisPoint = ⟨[], .ok w⟩ ∧ w.value? = some (n.onAxis d) := by
  have at_axis := Vector.at_exact denotes.normal n.greatestAxis
  obtain ⟨h, divided, h_value⟩ := Scalar.divide_exact (Scalar.neg_exact denotes.offset) at_axis
    (Point.at_greatestAxis_ne_zero nonzero)
  refine ⟨Vector.ofAxes fun i => if i = n.greatestAxis then h else 0, ?_, ?_⟩
  · unfold axisPoint
    rw [Vector.greatestAxis_exact denotes.normal]
    dsimp only
    rw [divided, Noted.done_bind]
    rfl
  · exact Vector.value?_ofAxes h_value n.greatestAxis

theorem Plane.discerned_plane (first : P.Denotes m d) (second : Q.Denotes n e) (m_nonzero : m ≠ 0)
    (n_nonzero : n ≠ 0) (returns : (P.distance Q).result = .ok a) :
    (a.isZero = true ↔ (Figure.plane m d).Touches (.plane n e)) ↔
      (Figure.plane m d).Discerned (.plane n e) := by
  obtain ⟨w, picked, w_value⟩ := axisPoint_exact first m_nonzero
  simp only [distance, Noted.result_bind, Noted.result_lift] at returns
  obtain ⟨angle, found, measured⟩ := returns
  rw [Vector.angleOfNormals_congr first.normal second.normal] at found
  rw [Figure.Discerned]
  split at measured
  · rename_i taken
    have aligned : TakenForAligned m n := ⟨angle, found, taken⟩
    rw [picked, Noted.done_bind] at measured
    obtain ⟨zero, discerned⟩ := isZero_distanceToPoint second w_value measured
    by_cases parallel : m.cross n = 0
    · rw [if_pos parallel, Figure.plane_touches_parallel m_nonzero parallel
        (Point.dot_onAxis m_nonzero d)]
      exact discerned
    · have touches := Figure.plane_touches_plane (d := d) (e := e) parallel
      simpa [parallel, aligned, touches] using zero
  · rename_i slanted
    have open_angle : ¬TakenForAligned m n := by
      rintro ⟨other, same, taken⟩
      cases found.symm.trans same
      exact slanted taken
    have independent : m.cross n ≠ 0 := fun parallel =>
      open_angle (takenForAligned_of_cross m_nonzero n_nonzero parallel)
    have touches := Figure.plane_touches_plane (d := d) (e := e) independent
    cases measured
    simp [isZero_zero, independent, open_angle, touches]

end

end SolidGeometry
