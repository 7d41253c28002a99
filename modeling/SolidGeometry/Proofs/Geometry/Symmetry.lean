import SolidGeometry.Proofs.Geometry.ExactElements
import SolidGeometry.Proofs.Geometry.Reports

namespace SolidGeometry
open Number

section

variable {a b : Scalar} {s t : Rat} {u v : Vector} {p q : Point}

theorem Scalar.mul_comm_of_exact (left : a.rational? = some s) (right : b.rational? = some t) :
    a.mul b = b.mul a := by
  have whole (m n : Int) : (int m).mul (int n) = (int n).mul (int m) :=
    congrArg (fun k => (.ok (.int k) : Checked Scalar)) (Int.mul_comm m n)
  have broken (x y : Rat) : (.ok (.ratio (x * y)) : Checked Scalar) = .ok (.ratio (y * x)) := by
    rw [Rat.mul_comm]
  cases a <;> cases left <;> cases b <;> cases right
  · exact whole _ _
  · exact broken _ _
  · exact broken _ _
  · exact broken _ _

/-- Products of exact numbers as operands of further arithmetic. -/
theorem product_comm (left : a.rational? = some s) (right : b.rational? = some t) :
    (a : Checked Scalar) * (b : Checked Scalar) = (b : Checked Scalar) * (a : Checked Scalar) :=
  Scalar.mul_comm_of_exact left right

theorem Vector.dot_comm_of_exact (first : u.value? = some p) (second : v.value? = some q) :
    u.dot v = v.dot u := by
  obtain ⟨ux, uy, uz⟩ := value?_eq_some.mp first
  obtain ⟨vx, vy, vz⟩ := value?_eq_some.mp second
  unfold dot
  rw [product_comm ux vx, product_comm uy vy, product_comm uz vz]

theorem Vector.angle_comm (first : u.value? = some p) (second : v.value? = some q) :
    u.angle v = v.angle u := by
  obtain ⟨l, left, l_value⟩ := dot_exact first first
  obtain ⟨r, right, r_value⟩ := dot_exact second second
  unfold angle
  simp only [left, right, bind, Except.bind]
  rw [dot_comm_of_exact first second, Scalar.mul_comm_of_exact l_value r_value]

theorem Vector.angleOrZero_comm (first : u.value? = some p) (second : v.value? = some q) :
    u.angleOrZero v = v.angleOrZero u := by
  rw [angleOrZero, angleOrZero, angle_comm first second]

theorem Vector.angleOfNormals_comm (first : u.value? = some p) (second : v.value? = some q) :
    u.angleOfNormals v = v.angleOfNormals u := by
  rw [angleOfNormals, angleOfNormals, angle_comm first second]

end

section

variable {f g : Element} (first : f.IsExact) (second : g.IsExact) (same : f.kind = g.kind)

include same

/-- Elements of one kind are reported in the same words. -/
theorem Element.degeneracy?_comm :
    f.degeneracy?.toList ++ g.degeneracy?.toList =
      g.degeneracy?.toList ++ f.degeneracy?.toList := by
  cases f with
  | vector u => cases g <;> first | rfl | cases same
  | span S => cases g <;> first | rfl | cases same
  | line l =>
    cases g with
    | line k =>
      simp only [degeneracy?]
      split <;> split <;> rfl
    | _ => cases same
  | plane P =>
    cases g with
    | plane Q =>
      simp only [degeneracy?]
      split <;> split <;> rfl
    | _ => cases same

include first second

theorem Element.angle?_comm : f.angle? g = g.angle? f := by
  cases f with
  | vector u =>
    cases g with
    | vector v =>
      obtain ⟨p, u_value⟩ := isExact_vector.mp first
      obtain ⟨q, v_value⟩ := isExact_vector.mp second
      exact congrArg some (Vector.angleOrZero_comm u_value v_value)
    | _ => cases same
  | line l =>
    cases g with
    | line k =>
      obtain ⟨_, r, l_denotes⟩ := isExact_line.mp first
      obtain ⟨_, s, k_denotes⟩ := isExact_line.mp second
      exact congrArg some (Vector.angleOrZero_comm l_denotes.direction k_denotes.direction)
    | _ => cases same
  | plane P =>
    cases g with
    | plane Q =>
      obtain ⟨m, _, P_denotes⟩ := isExact_plane.mp first
      obtain ⟨n, _, Q_denotes⟩ := isExact_plane.mp second
      exact congrArg some (Vector.angleOfNormals_comm P_denotes.normal Q_denotes.normal)
    | _ => cases same
  | span S => cases g <;> rfl

end

/-- The operations that look at nothing but the angle of their operands. -/
def angularOperations : List Operation := [.angle, .parallel, .perpendicular]

section

variable {o : Operation} {f g : Element}

theorem Operation.method?_comm (angular : o ∈ angularOperations)
    (angles : f.angle? g = g.angle? f) : o.method? f g = o.method? g f := by
  simp only [angularOperations, List.mem_cons, List.not_mem_nil, or_false] at angular
  rcases angular with rfl | rfl | rfl
  · rw [method?, method?, angles]
  · rw [method?, method?, angles]
  · rw [method?, method?, angles]

/-- Elements of one kind have a method in both orders or in none. -/
theorem runMethod_comm (angular : o ∈ angularOperations) (first : f.IsExact) (second : g.IsExact)
    (same : f.kind = g.kind) : (runMethod o.label f g).Alike (runMethod o.label g f) := by
  have methods := Operation.method?_comm angular (Element.angle?_comm first second same)
  cases supported : o.method? f g with
  | none =>
    have missing := methods.symm.trans supported
    rw [runMethod, runMethod, method?_label, method?_label, supported, missing]
    exact ⟨by simp only [noMethod, same], rfl⟩
  | some m =>
    obtain ⟨result, warnings⟩ := runMethod_of_method supported
    obtain ⟨swapped, reported⟩ := runMethod_of_method (methods.symm.trans supported)
    refine ⟨result.trans swapped.symm, ?_⟩
    rw [warnings, reported, ← List.append_assoc, ← List.append_assoc,
      Element.degeneracy?_comm same]

end

/-- The angle of two exact elements of any kinds, and whether they are parallel or perpendicular, is
the same in either order of the elements: the same value, the same warnings or the same fault. -/
theorem angular_comm {name : String} (angular : name ∈ ["angle", "parallel?", "perpendicular?"])
    {a b : Element} (first : a.IsExact) (second : b.IsExact) :
    (operate name a b).Alike (operate name b a) := by
  obtain ⟨o, listed, rfl⟩ : ∃ o ∈ angularOperations, o.label = name := List.mem_map.mp angular
  obtain ⟨f, f_equation, f_exact, -⟩ := first.toEquation
  obtain ⟨g, g_equation, g_exact, -⟩ := second.toEquation
  have given := operate_alike o.label f_equation g_equation
  have turned := operate_alike o.label g_equation f_equation
  by_cases same : f.kind = g.kind
  · obtain ⟨here, there⟩ := Operands.inOrder_same same
    obtain ⟨front, back⟩ := Operands.inOrder_same same.symm
    rw [here, there] at given
    rw [front, back] at turned
    exact given.trans ((runMethod_comm listed f_exact g_exact same).trans turned.symm)
  · obtain ⟨here, there⟩ := Operands.inOrder_comm same
    rw [here, there] at given
    exact given.trans turned.symm

/-- A plane without a normal and a plane by two directions become elements of one kind. The missing
normal is reported in either order. -/
theorem angular_comm_degenerate :
    (operate "angle" (.plane ⟨⟨0, 0, 0⟩, 1⟩)
        (.span ⟨⟨0, 0, 1⟩, ⟨1, 0, 0⟩, ⟨0, .ratio (1 / 2), 0⟩⟩)).Alike
      (operate "angle" (.span ⟨⟨0, 0, 1⟩, ⟨1, 0, 0⟩, ⟨0, .ratio (1 / 2), 0⟩⟩)
        (.plane ⟨⟨0, 0, 0⟩, 1⟩)) ∧
    (operate "angle" (.span ⟨⟨0, 0, 1⟩, ⟨1, 0, 0⟩, ⟨0, .ratio (1 / 2), 0⟩⟩)
        (.plane ⟨⟨0, 0, 0⟩, 1⟩)).warnings = [⟨.operand, "Plane has a zero normal vector"⟩] := by
  have plane : (Element.plane ⟨⟨0, 0, 0⟩, 1⟩).IsExact := Element.isExact_plane.mpr ⟨_, _, rfl, rfl⟩
  have span : (Element.span ⟨⟨0, 0, 1⟩, ⟨1, 0, 0⟩, ⟨0, .ratio (1 / 2), 0⟩⟩).IsExact :=
    Element.isExact_span.mpr ⟨_, _, _, rfl, rfl, rfl⟩
  exact ⟨angular_comm (by decide) plane span, by decide +kernel⟩

end SolidGeometry
