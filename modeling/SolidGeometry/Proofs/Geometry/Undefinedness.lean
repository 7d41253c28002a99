import SolidGeometry.Proofs.Geometry.Directions
import SolidGeometry.Proofs.Geometry.ExactElements
import SolidGeometry.Proofs.Geometry.Unmeasured
import SolidGeometry.Proofs.Number.Defined

namespace SolidGeometry
open Number

variable {warned : Prop}

/-- A float that is neither infinite nor none. -/
def Number.IsFinite (x : Float) : Prop := ∃ u, value? x = some u

/-- A number that is one, unless there was a warning. -/
def Scalar.NumberUnless (warned : Prop) (a : Scalar) : Prop := a.isNaN = true → warned

theorem Yields.ensures {m : Checked Scalar} {q : Rat} (yields : Yields m q) :
    Ensures m fun a => a.rational? = some q := by
  obtain ⟨a, rfl, value⟩ := yields
  exact .pure value

theorem YieldsPoint.ensures {m : Checked Vector} {p : Point} (yields : YieldsPoint m p) :
    Ensures m fun v => v.value? = some p := by
  obtain ⟨v, rfl, value⟩ := yields
  exact .pure value

namespace Scalar

variable {a : Scalar} {q : Rat} {x y : Float}

theorem isFinite_toFloat (exact : a.rational? = some q) : Ensures a.toFloat IsFinite := by
  intro x converts
  obtain ⟨u, valued, -⟩ := value?_of_nearest? ((toFloat_eq_ok exact).mp converts)
  exact ⟨u, valued⟩

theorem numberUnless_of_defined (defined : Number.isNaN x = false) :
    (float x).NumberUnless warned := by
  intro lost
  rw [isNaN_float, defined] at lost
  cases lost

theorem numberUnless_float (finite : IsFinite x) : (float x).NumberUnless warned := by
  obtain ⟨u, valued⟩ := finite
  exact numberUnless_of_defined (not_isNaN_of_value? valued)

theorem keeps_floatQuotient (dividend : Ensures a.toFloat IsFinite) (divisor : IsFinite y) :
    Ensures (a.floatQuotient (.float y)) fun z => Number.isNaN z = false := by
  obtain ⟨v, y_value⟩ := divisor
  refine dividend.bind fun x ⟨u, x_value⟩ => .bind (P := (· = y)) (.pure rfl) ?_
  rintro _ rfl
  split
  · nofun
  · rename_i proper
    refine .pure (not_isNaN_quotient x_value y_value ?_)
    rintro rfl
    exact proper (beq_zero_of_value? y_value)

/-- The quotient of a finite number by a length is a number, unless it warns. -/
theorem keeps_divide_float (dividend : Ensures a.toFloat IsFinite) (divisor : IsFinite y) :
    (a.divide (.float y)).Keeps warned (NumberUnless warned) := by
  unfold divide
  split
  · refine .bind (.any _) fun above _ => .bind (.any _) fun under _ => ?_
    exact .bind (.warn _) fun _ known => .pure fun _ => known
  · have quotient : Noted.Keeps warned
        (do return .float (← a.floatQuotient (.float y)) : Computation Scalar)
        (NumberUnless warned) :=
      .bind (.lift (keeps_floatQuotient dividend divisor)) fun z proper =>
        .pure (numberUnless_of_defined proper)
    split
    · rename_i other
      cases other
    · exact quotient

end Scalar

namespace Vector

variable {u v : Vector} {p q : Point}

theorem isFinite_length (exact : v.value? = some p) : Ensures v.length IsFinite := by
  intro y returns
  obtain ⟨x, nearest, rfl⟩ := (length_eq_ok exact).mp returns
  obtain ⟨r, root, -⟩ := exists_value_sqrt (Point.dot_self_nonneg p) nearest
  exact ⟨r, root⟩

theorem isFinite_area (first : u.value? = some p) (second : v.value? = some q) :
    Ensures (u.area v) IsFinite := by
  obtain ⟨n, crossed, n_value⟩ := cross_exact first second
  rw [area, crossed]
  exact isFinite_length n_value

theorem isFinite_distance (first : u.value? = some p) (second : v.value? = some q) :
    Ensures (u.distance v) IsFinite := by
  obtain ⟨gap, moved, gap_value⟩ := between_exact first second
  rw [distance, moved]
  exact isFinite_length gap_value

/-- A unit vector has numbers, unless there is none and it warns. -/
theorem keeps_normalize (exact : v.value? = some p) :
    v.normalize.Keeps warned fun w => ∀ n ∈ w.toList, n.NumberUnless warned := by
  obtain ⟨x, y, z⟩ := value?_eq_some.mp exact
  unfold normalize
  refine .bind (.lift (isFinite_length exact)) fun n finite => ?_
  split
  · refine .bind (.warn _) fun _ known => .pure ?_
    exact fun _ _ _ => known
  · have divided {q : Rat} {n : Scalar} (exact : n.rational? = some q) :=
      Scalar.keeps_floatQuotient (Scalar.isFinite_toFloat exact) finite
    refine .bind (.lift (divided x)) fun a first => ?_
    refine .bind (.lift (divided y)) fun b second => ?_
    refine .bind (.lift (divided z)) fun c third => .pure ?_
    simp only [toList, List.forall_mem_cons]
    exact ⟨Scalar.numberUnless_of_defined first, Scalar.numberUnless_of_defined second,
      Scalar.numberUnless_of_defined third, List.forall_mem_nil _⟩

end Vector

section

variable {l m : Line} {P Q : Plane} {v : Vector} {b c p r s n : Point} {d e : Rat}

theorem Line.keeps_distanceToPoint (line : l.Denotes b r) (point : v.value? = some p) :
    (l.distanceToPoint v).Keeps warned (Scalar.NumberUnless warned) := by
  refine .bind (.lift (Vector.between_exact line.base point).ensures) fun gap gap_value => ?_
  refine .bind (.lift (Vector.isFinite_area line.direction gap_value)) fun area finite => ?_
  refine .bind (.lift (Vector.isFinite_length line.direction)) fun length divisor => ?_
  exact Scalar.keeps_divide_float (.pure finite) divisor

theorem Line.keeps_distance (first : l.Denotes b r) (second : m.Denotes c s) :
    (l.distance m).Keeps warned (Scalar.NumberUnless warned) := by
  refine .bind (.lift (Vector.cross_exact first.direction second.direction).ensures)
    fun n n_value => ?_
  split
  · exact Line.keeps_distanceToPoint first second.base
  · refine .bind (.lift (Vector.between_exact first.base second.base).ensures)
      fun gap gap_value => ?_
    refine .bind (.lift (Vector.dot_exact n_value gap_value).ensures) fun volume value => ?_
    refine .bind (.lift (Vector.isFinite_length n_value)) fun length divisor => ?_
    exact Scalar.keeps_divide_float (Scalar.isFinite_toFloat (Scalar.abs_exact value)) divisor

theorem Plane.keeps_distanceToPoint (plane : P.Denotes n d) (point : v.value? = some p) :
    (P.distanceToPoint v).Keeps warned (Scalar.NumberUnless warned) := by
  refine .bind (.lift (Vector.dot_exact plane.normal point).ensures) fun product level => ?_
  refine .bind (.lift (Scalar.add_exact level plane.offset).ensures) fun height value => ?_
  refine .bind (.lift (Vector.isFinite_length plane.normal)) fun length divisor => ?_
  exact Scalar.keeps_divide_float (Scalar.isFinite_toFloat (Scalar.abs_exact value)) divisor

theorem Plane.keeps_distanceToLine (plane : P.Denotes n d) (line : l.Denotes b r) :
    (P.distanceToLine l).Keeps warned (Scalar.NumberUnless warned) := by
  refine .bind (.any _) fun angle _ => ?_
  split
  · exact Plane.keeps_distanceToPoint plane line.base
  · exact .pure (Scalar.numberUnless_float ⟨0, by decide +kernel⟩)

theorem Plane.Denotes.exactUnless (plane : P.Denotes n d) : P.ExactUnless warned := by
  obtain ⟨x, y, z⟩ := Vector.value?_eq_some.mp plane.normal
  exact ⟨⟨.inl ⟨_, x⟩, .inl ⟨_, y⟩, .inl ⟨_, z⟩⟩, .inl ⟨_, plane.offset⟩⟩

theorem Vector.ExactUnless.exists_value (exact : v.ExactUnless warned) :
    (∃ p, v.value? = some p) ∨ warned := by
  rcases exact.x with ⟨x, at_x⟩ | ⟨-, known⟩
  · rcases exact.y with ⟨y, at_y⟩ | ⟨-, known⟩
    · rcases exact.z with ⟨z, at_z⟩ | ⟨-, known⟩
      · exact .inl ⟨⟨x, y, z⟩, Vector.value?_eq_some.mpr ⟨at_x, at_y, at_z⟩⟩
      · exact .inr known
    · exact .inr known
  · exact .inr known

/-- A point of a plane is exact, unless the plane has no normal and the division warns. -/
theorem Plane.ExactUnless.axisPoint (plane : P.ExactUnless warned) :
    P.axisPoint.Keeps warned (Vector.ExactUnless warned) := by
  refine (plane.offset.neg.divide (plane.normal.atAxis _)).bind fun value exact => .pure ?_
  refine Vector.exactUnless_ofAxes fun i => ?_
  split
  · exact exact
  · exact Scalar.exactUnless_int 0

theorem Plane.keeps_distance (first : P.Denotes n d) (second : Q.Denotes r e) :
    (P.distance Q).Keeps warned (Scalar.NumberUnless warned) := by
  refine .bind (.any _) fun angle _ => ?_
  split
  · refine first.exactUnless.axisPoint.bind fun point exact => ?_
    rcases exact.exists_value with ⟨p, value⟩ | known
    · exact Plane.keeps_distanceToPoint second value
    · exact .imp (.any _) fun _ _ _ => known
  · exact .pure (Scalar.numberUnless_float ⟨0, by decide +kernel⟩)

end

theorem Element.keeps_distance {f g : Element} (first : f.IsExact) (second : g.IsExact)
    {k : Computation Scalar} (found : f.distance? g = some k) :
    k.Keeps warned (Scalar.NumberUnless warned) := by
  unfold Element.distance? at found
  split at found
  · obtain ⟨p, point⟩ := isExact_vector.mp first
    obtain ⟨q, other⟩ := isExact_vector.mp second
    cases found
    exact .bind (.lift (Vector.isFinite_distance point other)) fun x finite =>
      .pure (Scalar.numberUnless_float finite)
  · obtain ⟨b, r, line⟩ := isExact_line.mp first
    obtain ⟨p, point⟩ := isExact_vector.mp second
    cases found
    exact Line.keeps_distanceToPoint line point
  · obtain ⟨b, r, line⟩ := isExact_line.mp first
    obtain ⟨c, s, other⟩ := isExact_line.mp second
    cases found
    exact Line.keeps_distance line other
  · obtain ⟨n, d, plane⟩ := isExact_plane.mp first
    obtain ⟨p, point⟩ := isExact_vector.mp second
    cases found
    exact Plane.keeps_distanceToPoint plane point
  · obtain ⟨b, r, line⟩ := isExact_line.mp first
    obtain ⟨n, d, plane⟩ := isExact_plane.mp second
    cases found
    exact Plane.keeps_distanceToLine plane line
  · obtain ⟨n, d, plane⟩ := isExact_plane.mp first
    obtain ⟨m, e, other⟩ := isExact_plane.mp second
    cases found
    exact Plane.keeps_distance plane other
  · cases found

/-- The arc cosine of some number in its domain is none. -/
def ArcCosineFails : Prop := ∃ c : Float, -1.0 ≤ c ∧ c ≤ 1.0 ∧ isNaN c.acos = true

theorem arcCosineFails_of_clamped {c : Float} (lost : isNaN (clampCosine c).acos = true) :
    ArcCosineFails := by
  refine ⟨clampCosine c, ?_, ?_, lost⟩
  · rcases clampCosine_cases c with (least | greatest) | ⟨lower, -⟩
    · rw [least]
      decide
    · rw [greatest]
      decide
    · exact float_le_of_lt lower
  · rcases clampCosine_cases c with (least | greatest) | ⟨-, upper⟩
    · rw [least]
      decide
    · rw [greatest]
      decide
    · exact float_le_of_lt upper

theorem isNaN_of_degrees {x : Float} (lost : isNaN (degrees x) = true) : isNaN x = true := by
  have constant : (value? (180.0 / 3.14159265358979323846)).any (· ≠ 0) = true := by
    decide +kernel
  obtain ⟨c, valued, nonzero⟩ := (Option.any_eq_true _ _).mp constant
  exact isNaN_of_mul valued (of_decide_eq_true nonzero) lost

section

variable {u v : Vector} {p q : Point} {a : Float} (first : u.value? = some p)
  (second : v.value? = some q) (lost : isNaN a = true)

include first second lost

/-- The angle of exact vectors is only none if one of them has no length. -/
theorem Vector.angle_lost (returns : u.angle v = .ok a) : p = 0 ∨ q = 0 ∨ ArcCosineFails := by
  have defined (x : Float) (shown : isNaN x = false) : ¬(some x = some a) := by
    rintro ⟨⟩
    rw [shown] at lost
    cases lost
  rw [angle_eq_ok first second, exactAngle?] at returns
  split at returns
  · rename_i flat
    rw [mul_eq_zero, Point.dot_self_eq_zero, Point.dot_self_eq_zero] at flat
    exact flat.imp_right .inl
  split at returns
  · exact absurd returns (defined _ (by decide))
  split at returns
  · split at returns
    · exact absurd returns (defined _ (by decide))
    · exact absurd returns (defined _ (by decide))
  obtain ⟨x, above, rest⟩ := Option.bind_eq_some_iff.mp returns
  obtain ⟨y, under, last⟩ := Option.bind_eq_some_iff.mp rest
  split at last
  · cases last
  rename_i proper
  obtain ⟨s, x_value, -⟩ := value?_of_nearest? above
  obtain ⟨t, y_value, -⟩ := exists_value_sqrt
    (mul_nonneg (Point.dot_self_nonneg p) (Point.dot_self_nonneg q)) under
  have nonzero : t ≠ 0 := by
    rintro rfl
    exact proper (beq_zero_of_value? y_value)
  rw [not_isNaN_quotient x_value y_value nonzero] at last
  cases last
  exact .inr (.inr (arcCosineFails_of_clamped (isNaN_of_degrees lost)))

theorem Vector.angleToPlane_lost (returns : u.angleToPlane v = .ok a) :
    p = 0 ∨ q = 0 ∨ ArcCosineFails := by
  have right : Number.value? 90.0 = some 90 := by decide +kernel
  obtain ⟨x, found, result⟩ := Checked.bind_eq_ok.mp returns
  cases result
  split at lost
  · exact angle_lost first second ((isNaN_of_sub right).1 lost) found
  · exact angle_lost first second ((isNaN_of_sub right).2 lost) found

theorem Vector.angleOfNormals_lost (returns : u.angleOfNormals v = .ok a) :
    p = 0 ∨ q = 0 ∨ ArcCosineFails := by
  have straight : Number.value? 180.0 = some 180 := by decide +kernel
  obtain ⟨x, found, result⟩ := Checked.bind_eq_ok.mp returns
  cases result
  split at lost
  · exact angle_lost first second ((isNaN_of_sub straight).1 lost) found
  · exact angle_lost first second lost found

end

theorem Vector.angleOrZero_defined {u v : Vector} {a : Float} (returns : u.angleOrZero v = .ok a) :
    isNaN a = false := by
  obtain ⟨x, -, result⟩ := Checked.bind_eq_ok.mp returns
  cases result
  split
  · decide
  · rename_i defined
    exact Bool.eq_false_iff.mpr defined

/-- A line without direction is reported. -/
private theorem Line.Denotes.reported {l : Line} {b r : Point} (line : l.Denotes b r)
    (none : r = 0) : (Element.line l).degeneracy? ≠ .none := by
  simp [Element.degeneracy?, Vector.isZero_of_exact line.direction, none]

private theorem Plane.Denotes.reported {P : Plane} {n : Point} {d : Rat} (plane : P.Denotes n d)
    (none : n = 0) : (Element.plane P).degeneracy? ≠ .none := by
  simp [Element.degeneracy?, Vector.isZero_of_exact plane.normal, none]

/-- One of two elements is a plane and the other one a vector without length. -/
def Element.FacesNothing (a b : Element) : Prop :=
  (∃ n d, a.Depicts (.plane n d)) ∧ b.Depicts (.point 0) ∨
    a.Depicts (.point 0) ∧ ∃ n d, b.Depicts (.plane n d)

/-- The angle of exact elements is only none if one of them is reported, or for a plane and a vector
without length. -/
theorem Element.angle_lost {f g : Element} (first : f.IsExact) (second : g.IsExact)
    {m : Checked Float} {a : Float} (found : f.angle? g = some m) (returns : m = .ok a)
    (lost : isNaN a = true) : f.degeneracy? ≠ none ∨ g.degeneracy? ≠ none ∨ ArcCosineFails ∨
      f.FacesNothing g := by
  have defined {u v : Vector} (same : u.angleOrZero v = .ok a) : False := by
    rw [Vector.angleOrZero_defined same] at lost
    cases lost
  unfold Element.angle? at found
  split at found <;> cases found
  · exact (defined returns).elim
  · exact (defined returns).elim
  · exact (defined returns).elim
  · obtain ⟨n, d, plane⟩ := isExact_plane.mp first
    obtain ⟨p, value⟩ := isExact_vector.mp second
    by_cases normal : n = 0
    · exact .inl (plane.reported normal)
    rcases Vector.angleToPlane_lost plane.normal value lost returns with none | rfl | fails
    · exact absurd none normal
    · exact .inr (.inr (.inr (.inl ⟨⟨n, d, .plane plane normal⟩, .vector value⟩)))
    · exact .inr (.inr (.inl fails))
  · obtain ⟨n, d, plane⟩ := isExact_plane.mp first
    obtain ⟨m, e, other⟩ := isExact_plane.mp second
    rcases Vector.angleOfNormals_lost plane.normal other.normal lost returns with
      none | none | fails
    · exact .inl (plane.reported none)
    · exact .inr (.inl (other.reported none))
    · exact .inr (.inr (.inl fails))
  · obtain ⟨b, r, line⟩ := isExact_line.mp first
    obtain ⟨n, d, plane⟩ := isExact_plane.mp second
    rcases Vector.angleToPlane_lost plane.normal line.direction lost returns with
      none | none | fails
    · exact .inr (.inl (plane.reported none))
    · exact .inl (line.reported none)
    · exact .inr (.inr (.inl fails))

/-- Whether a computation leaves a warning of a known code. -/
def Noted.Reports {ε α : Type} (m : Noted ε α) : Prop := ∃ w ∈ m.warnings, w.code ∈ Code.known

theorem Noted.Warned.reports {ε α : Type} {m : Noted ε α} (warns : m.Warned) : m.Reports := by
  obtain ⟨w, listed, code⟩ := warns
  exact ⟨w, listed, by rw [code]; decide⟩

namespace Element.FacesNothing

variable {a b : Element}

theorem symm (faces : a.FacesNothing b) : b.FacesNothing a := by
  rcases faces with ⟨plane, nothing⟩ | ⟨nothing, plane⟩
  · exact .inr ⟨nothing, plane⟩
  · exact .inl ⟨plane, nothing⟩

/-- A plane and a vector without length have an angle that is not a number, and nothing is
reported. -/
theorem answers (faces : a.FacesNothing b) :
    Operation.angle.Answers a b (.number (.float (notANumber - 90.0))) := by
  have lost {u v : Vector} {p : Point} (first : u.value? = some p) (second : v.value? = some 0) :
      u.angleToPlane v = .ok (notANumber - 90.0) := by
    have none : u.angle v = .ok notANumber := by
      rw [Vector.angle_eq_ok first second, exactAngle?, if_pos (by simp [Point.dot])]
    rw [Vector.angleToPlane, none]
    rfl
  have quiet {P : Plane} {v : Vector} {n : Point} {d : Rat} (plane : P.Denotes n d)
      (nonzero : n ≠ 0) (nothing : v.value? = some 0) :
      (runMethod Operation.angle.label (.plane P) (.vector v)).Quiet
        (.number (.float (notANumber - 90.0))) := by
    refine runMethod_quiet (.plane plane nonzero) (.vector nothing) rfl ?_
    rw [lost plane.normal nothing]
    exact .pure _
  rcases faces with ⟨⟨n, d, plane⟩, nothing⟩ | ⟨nothing, n, d, plane⟩
  · obtain ⟨P, equation, denotes, nonzero⟩ := plane.exists_plane
    cases nothing with
    | @vector v _ value =>
      have alike := operate_alike Operation.angle.label equation (b := .vector v) rfl
      exact alike.quiet (quiet denotes nonzero value)
  · obtain ⟨P, equation, denotes, nonzero⟩ := plane.exists_plane
    cases nothing with
    | @vector v _ value =>
      have alike := operate_alike Operation.angle.label (a := .vector v) rfl equation
      exact alike.quiet (quiet denotes nonzero value)

end Element.FacesNothing

/-- A value of numbers that are ones, unless there was a warning. -/
def Value.NumberUnless (warned : Prop) (v : Value) : Prop := ∀ n ∈ v.numbers, n.NumberUnless warned

theorem Value.ExactUnless.numberUnless {v : Value} (exact : v.ExactUnless warned) :
    v.NumberUnless warned := by
  intro n member lost
  rcases exact n member with ⟨q, rational⟩ | ⟨-, known⟩
  · rw [Scalar.not_isNaN_of_exact rational] at lost
    cases lost
  · exact known

theorem Value.numberUnless_number {n : Scalar} :
    (Value.number n).NumberUnless warned ↔ n.NumberUnless warned := by
  simp [NumberUnless, numbers]

section

variable {a b f g : Element} {m : Computation Value} {v : Value}

theorem Element.IsExact.exactUnless (exact : f.IsExact) : f.ExactUnless warned :=
  Element.exactUnless_iff.mpr fun n member => .inl (exact n member)

theorem Element.ExactUnless.isExact (exact : f.ExactUnless False) : f.IsExact :=
  fun n member => (Element.exactUnless_iff.mp exact n member).resolve_right And.right

theorem Operation.keeps_numbers {o : Operation} (first : f.IsExact) (second : g.IsExact)
    (supported : o.method? f g = some m) (other : o ≠ .angle) :
    m.Keeps warned (Value.NumberUnless warned) := by
  by_cases measures : o = .distance
  · subst measures
    obtain ⟨k, found, rfl⟩ := Option.map_eq_some_iff.mp supported
    exact (Element.keeps_distance first second found).bind fun n kept =>
      .pure (Value.numberUnless_number.mpr kept)
  · refine (keeps_method first.exactUnless second.exactUnless supported).imp ?_
    rintro w (exact | ⟨measured, -⟩)
    · exact exact.numberUnless
    · cases o <;> first | exact absurd rfl other | exact absurd rfl measures |
        exact absurd measured (by decide)

/-- A method of exact elements in the order of their kinds has numbers as its result, or warns, or
was asked for an angle where there is none. -/
theorem Operation.method_lost {o : Operation} (first : f.IsExact) (second : g.IsExact)
    (supported : o.method? f g = some m) (returns : m.result = .ok v)
    (lost : ∃ n ∈ v.numbers, n.isNaN = true) :
    m.Warned ∨ o = .angle ∧ (f.degeneracy? ≠ none ∨ g.degeneracy? ≠ none ∨ ArcCosineFails ∨
      f.FacesNothing g) := by
  obtain ⟨n, member, none⟩ := lost
  by_cases angle : o = .angle
  · subst angle
    obtain ⟨measured, found, rfl⟩ := Option.map_eq_some_iff.mp supported
    obtain ⟨x, done, result⟩ := Noted.result_bind.mp returns
    cases result
    obtain rfl := List.mem_singleton.mp member
    rw [Scalar.isNaN_float] at none
    exact .inr ⟨rfl, Element.angle_lost first second found done none⟩
  · exact .inl (keeps_numbers first second supported angle id v returns n member none)

theorem runMethod_lost {name : String} (first : f.IsExact) (second : g.IsExact)
    (returns : (runMethod name f g).result = .ok v) (lost : ∃ n ∈ v.numbers, n.isNaN = true) :
    (runMethod name f g).Reports ∨ name = "angle" ∧ (ArcCosineFails ∨ f.FacesNothing g) := by
  cases found : method? name f g with
  | none =>
    rw [runMethod, found] at returns
    cases returns
  | some m =>
    obtain ⟨o, named, supported⟩ := Option.bind_eq_some_iff.mp found
    obtain rfl := Operation.label_of_named named
    obtain ⟨result, warnings⟩ := runMethod_of_method supported
    have reports {w : Warning} (code : w.code ∈ Code.known)
        (listed : w ∈ f.degeneracy?.toList ++ (g.degeneracy?.toList ++ m.warnings)) :
        (runMethod o.label f g).Reports := ⟨w, by rw [warnings]; exact listed, code⟩
    have degenerate {e : Element} {w : Warning} (reported : e.degeneracy? = some w) :
        w.code ∈ Code.known := by
      rw [Element.code_of_degeneracy reported]
      decide
    rw [result] at returns
    rcases Operation.method_lost first second supported returns lost with
      ⟨w, listed, code⟩ | ⟨rfl, flat | flat | fails | faces⟩
    · exact .inl (reports (by rw [code]; decide) (by simp [listed]))
    · obtain ⟨w, reported⟩ := Option.ne_none_iff_exists'.mp flat
      exact .inl (reports (degenerate reported) (by simp [reported]))
    · obtain ⟨w, reported⟩ := Option.ne_none_iff_exists'.mp flat
      exact .inl (reports (degenerate reported) (by simp [reported]))
    · exact .inr ⟨rfl, .inl fails⟩
    · exact .inr ⟨rfl, .inr faces⟩

/-- An operation on exact elements has numbers as its result, or warns, or was asked for the angle
of a plane with a vector without length. -/
theorem operate_lost {name : String} (first : a.IsExact) (second : b.IsExact)
    (returns : (operate name a b).result = .ok v) (lost : ∃ n ∈ v.numbers, n.isNaN = true) :
    (operate name a b).Reports ∨ name = "angle" ∧ (ArcCosineFails ∨ a.FacesNothing b) := by
  obtain ⟨f, f_equation, f_exact, -⟩ := first.toEquation
  obtain ⟨g, g_equation, g_exact, -⟩ := second.toEquation
  have alike := operate_alike name f_equation g_equation
  have given (faces : f.FacesNothing g) : a.FacesNothing b :=
    faces.imp
      (fun ⟨⟨n, d, plane⟩, nothing⟩ => ⟨⟨n, d, first.depicts_of_equation f_equation plane⟩,
        second.depicts_of_equation g_equation nothing⟩)
      fun ⟨nothing, n, d, plane⟩ => ⟨first.depicts_of_equation f_equation nothing, n, d,
        second.depicts_of_equation g_equation plane⟩
  rw [alike.result] at returns
  rw [Noted.Reports, alike.warnings]
  rcases Operands.inOrder_cases f g with ⟨here, there⟩ | ⟨here, there⟩
  · rw [here, there] at returns ⊢
    exact (runMethod_lost f_exact g_exact returns lost).imp_right fun ⟨named, cause⟩ =>
      ⟨named, cause.imp_right given⟩
  · rw [here, there] at returns ⊢
    exact (runMethod_lost g_exact f_exact returns lost).imp_right fun ⟨named, cause⟩ =>
      ⟨named, cause.imp_right fun faces => given faces.symm⟩

end

end SolidGeometry
