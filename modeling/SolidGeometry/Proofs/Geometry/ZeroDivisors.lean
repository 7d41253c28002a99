import SolidGeometry.Expression
import SolidGeometry.Proofs.Geometry.Coincidence
import SolidGeometry.Proofs.Geometry.Degeneracies
import SolidGeometry.Proofs.Geometry.Orthogonality

/-! Divisions of exact numbers by zero. The quotient is undefined and the division is warned of, but
the warning writes the dividend in full, and an undefined number rounds each exact number that it
meets. So an operation on exact operands has no result where it divides by zero a number of too many
digits, or goes on to a number beyond the doubles. -/
namespace SolidGeometry
open Number

section

variable {a b c : Scalar} {p q : Rat}

theorem spellable_neg : Spellable (-p) ↔ Spellable p := by
  rw [Spellable, Rat.num_neg_eq_neg_num, Rat.den_neg_eq_den, Int.natAbs_neg, Spellable]

theorem spellable_zero : Spellable 0 := by
  have limit : 1 < Nat.pow 10 digitLimit := one_lt_pow digitLimit (by decide)
  exact ⟨zero_lt_one.trans limit, limit⟩

namespace Scalar

/-- A number that is not written has too many digits. -/
theorem error_of_text {e : Fault} (failed : a.text = .error e) :
    e = .refused (.digits .writing) := by
  have integer (n : Int) : writeInt n = .ok (toString n) ∨
      writeInt n = .error (.refused (.digits .writing)) := by
    unfold writeInt
    split
    · exact .inl rfl
    · exact .inr rfl
  cases a with
  | int n =>
    rcases integer n with written | refused
    · cases written.symm.trans failed
    · cases refused.symm.trans failed
      rfl
  | ratio r =>
    rw [text] at failed
    rcases integer r.num with above | above
    · rcases integer r.den with under | under
      · rw [above, under] at failed
        split at failed <;> cases failed
      · rw [above, under] at failed
        split at failed <;> cases failed
        rfl
    · rw [above] at failed
      split at failed <;> cases failed <;> rfl
  | float x => cases failed
  | undefined => cases failed

theorem text_of_zero (zero : b.rational? = some 0) : b.text = .ok "0" := by
  have limit : 0 < Nat.pow 10 digitLimit := spellable_zero.1
  have written : writeInt 0 = .ok "0" := if_pos limit
  cases b with
  | int n =>
    rw [rational?, Option.some.injEq, Int.cast_eq_zero] at zero
    rw [text, zero, written]
  | ratio r =>
    cases zero
    rw [text, if_pos Rat.den_zero, Rat.num_zero, written]
  | float x => cases zero
  | undefined => cases zero

/-- A quotient by zero is undefined. There is no other event than the warning, and no other fault
than that the dividend cannot be written in it. -/
theorem divide_zero (left : a.rational? = some p) (right : b.rational? = some 0) :
    (Spellable p → ∃ above, a.text = .ok above ∧
      a.divide b = ⟨[.warning ⟨.division, "Division by zero (" ++ above ++ " / 0) gives NaN"⟩],
        .ok .undefined⟩) ∧
    (¬Spellable p → a.divide b = ⟨[], .error (.refused (.digits .writing))⟩) := by
  have zero : b.isZero = true := by
    rw [isZero_of_exact right, decide_eq_true rfl]
  rw [← succeeds_text left, divide, if_pos zero, text_of_zero right]
  constructor
  · rintro ⟨above, written⟩
    have told : s!"Division by zero ({above}" ++ " / " ++ "0" ++ ") gives NaN" =
        "Division by zero (" ++ above ++ " / 0) gives NaN" := by
      rw [String.append_assoc, String.append_assoc]
      rfl
    refine ⟨above, written, ?_⟩
    rw [written, ← told]
    rfl
  · intro long
    cases written : a.text with
    | ok above => exact absurd ⟨above, written⟩ long
    | error e =>
      cases error_of_text written
      rfl

theorem succeeds_divide_exact (left : a.rational? = some p) (right : b.rational? = some q) :
    Succeeds (a.divide b).result ↔ (q = 0 → Spellable p) := by
  by_cases zero : q = 0
  · subst zero
    obtain ⟨spelled, refused⟩ := divide_zero left right
    simp only [true_implies]
    constructor
    · rintro ⟨c, divided⟩
      by_contra long
      rw [refused long] at divided
      cases divided
    · intro short
      obtain ⟨above, -, quotient⟩ := spelled short
      exact ⟨.undefined, by rw [quotient]⟩
  · obtain ⟨c, divided, -⟩ := divide_exact left right zero
    rw [divided]
    exact iff_of_true ⟨c, rfl⟩ fun vanishes => absurd vanishes zero

theorem eq_undefined_of_divide (left : a.rational? = some p) (right : b.rational? = some 0)
    (divided : (a.divide b).result = .ok c) : c = .undefined := by
  obtain ⟨spelled, refused⟩ := divide_zero left right
  by_cases short : Spellable p
  · obtain ⟨above, -, quotient⟩ := spelled short
    rw [quotient] at divided
    cases divided
    rfl
  · rw [refused short] at divided
    cases divided

/-- Zero by an undefined number is a float. -/
theorem mul_undefined (zero : a.rational? = some 0) :
    ∃ x, a.mul .undefined = .ok (.float x) := by
  obtain ⟨x, rounded⟩ : Succeeds a.toFloat := (succeeds_toFloat zero).mpr (by
    unfold Roundable
    decide +kernel)
  have product : (do return .float ((← a.toFloat) * notANumber) : Checked Scalar) =
      .ok (.float (x * notANumber)) := by
    rw [rounded]
    rfl
  cases a with
  | float y => cases zero
  | undefined => cases zero
  | _ => exact ⟨_, product⟩

theorem succeeds_sub_float {x : Float} (exact : a.rational? = some p) :
    Succeeds (a.sub (.float x)) ↔ Roundable p := by
  have difference : Succeeds (do return .float ((← a.toFloat) - x) : Checked Scalar) ↔
      Roundable p := by
    rw [SolidGeometry.succeeds_bind fun y => SolidGeometry.succeeds_pure _, and_true,
      succeeds_toFloat exact]
  cases a with
  | float y => cases exact
  | undefined => cases exact
  | _ => exact difference

end Scalar

end

namespace Vector

variable {u v : Vector} {p q : Point}

/-- The zero vector by an undefined number has floats as components. -/
theorem scale_undefined (zero : v.value? = some 0) :
    ∃ x y z, v.scale .undefined = .ok ⟨.float x, .float y, .float z⟩ := by
  obtain ⟨at_x, at_y, at_z⟩ := value?_eq_some.mp zero
  obtain ⟨x, first⟩ := Scalar.mul_undefined at_x
  obtain ⟨y, second⟩ := Scalar.mul_undefined at_y
  obtain ⟨z, third⟩ := Scalar.mul_undefined at_z
  refine ⟨x, y, z, ?_⟩
  rw [scale, first, second, third]
  rfl

/-- Floats are taken from the components of an exact vector if these can be rounded. -/
theorem succeeds_sub_floats {x y z : Float} (exact : u.value? = some p) :
    Succeeds (u.sub ⟨.float x, .float y, .float z⟩) ↔ ∀ axis, Roundable (p.at axis) := by
  obtain ⟨at_x, at_y, at_z⟩ := value?_eq_some.mp exact
  have components : (∀ axis, Roundable (p.at axis)) ↔
      Roundable p.x ∧ Roundable p.y ∧ Roundable p.z := by
    constructor
    · intro each
      exact ⟨each .x, each .y, each .z⟩
    · rintro ⟨first, second, third⟩ axis
      cases axis with
      | x => exact first
      | y => exact second
      | z => exact third
  rw [sub, ofChecked, components, succeeds_bind fun _ => succeeds_bind fun _ =>
    succeeds_bind fun _ => succeeds_pure _, Scalar.succeeds_sub_float at_x,
    Scalar.succeeds_sub_float at_y, Scalar.succeeds_sub_float at_z, and_true]

/-- A vector is projected on any other, also if that has no direction. -/
theorem succeeds_projection (left : u.value? = some p) (right : v.value? = some q) :
    Succeeds (u.projection v).result := by
  by_cases proper : q = 0
  · subst proper
    obtain ⟨above, multiplied, above_value⟩ := dot_exact left right
    obtain ⟨under, squared, under_value⟩ := dot_exact right right
    rw [Point.dot_comm, Point.zero_dot] at above_value
    rw [Point.zero_dot] at under_value
    rw [projection, multiplied, squared]
    simp only [Noted.lift_ok, Noted.done_bind]
    refine (Noted.succeeds_bind (p := True) fun c divided => ?_).mpr ⟨?_, trivial⟩
    · cases Scalar.eq_undefined_of_divide above_value under_value divided
      obtain ⟨x, y, z, scaled⟩ := scale_undefined right
      exact iff_true_intro ⟨_, scaled⟩
    · exact (Scalar.succeeds_divide_exact above_value under_value).mpr fun _ => spellable_zero
  · obtain ⟨w, projected, -⟩ := projection_exact left right proper
    exact ⟨w, by rw [projected]⟩

end Vector

section

variable {P : Plane} {S : Span} {l : Line} {v : Vector} {n p b r : Point} {d : Rat}

namespace Plane

theorem succeeds_intercepts (plane : P.Denotes n d) :
    Succeeds P.intercepts.result ↔ (n.x = 0 ∨ n.y = 0 ∨ n.z = 0 → Spellable d) := by
  obtain ⟨at_x, at_y, at_z⟩ := Vector.value?_eq_some.mp plane.normal
  have above := Scalar.neg_exact plane.offset
  rw [intercepts, Noted.succeeds_bind fun _ _ => Noted.succeeds_bind fun _ _ =>
    Noted.succeeds_bind fun _ _ => succeeds_pure _, Scalar.succeeds_divide_exact above at_x,
    Scalar.succeeds_divide_exact above at_y, Scalar.succeeds_divide_exact above at_z,
    spellable_neg, and_true]
  tauto

theorem succeeds_toSpan (plane : P.Denotes n d) :
    Succeeds P.toSpan.result ↔ (n = 0 → Spellable d) := by
  by_cases proper : n = 0
  · subst proper
    have uncut : ¬Intercepted 0 d := fun cuts => cuts.cuts_x rfl
    obtain ⟨square, squared, square_value⟩ := Vector.dot_exact plane.normal plane.normal
    have helper_value : (Vector.ofAxes fun i => if i = P.normal.leastAxis then 1 else 0).value? =
        some (Point.unit P.normal.leastAxis) := by
      cases P.normal.leastAxis <;> rfl
    obtain ⟨f, crossed, f_value⟩ := Vector.cross_exact plane.normal helper_value
    obtain ⟨g, crossed_again, -⟩ := Vector.cross_exact plane.normal f_value
    rw [Point.zero_dot] at square_value
    unfold toSpan
    dsimp only
    rw [if_neg (uncut ∘ plane.cuts_iff.mp), squared]
    simp only [Noted.lift_ok, Noted.done_bind]
    rw [Noted.succeeds_bind (p := True) fun c divided => ?_,
      Scalar.succeeds_divide_exact (Scalar.neg_exact plane.offset) square_value, spellable_neg,
      and_true]
    · simp
    · cases Scalar.eq_undefined_of_divide (Scalar.neg_exact plane.offset) square_value divided
      obtain ⟨x, y, z, scaled⟩ := Vector.scale_undefined plane.normal
      rw [scaled]
      simp only [Noted.lift_ok, Noted.done_bind, crossed]
      rw [crossed_again]
      exact iff_true_intro ⟨_, rfl⟩
  · obtain ⟨S, -, -, -, converted, -⟩ := plane.toSpan proper
    rw [converted]
    exact iff_of_true ⟨S, rfl⟩ fun vanishes => absurd vanishes proper

theorem succeeds_foot (plane : P.Denotes n d) (point : v.value? = some p) :
    Succeeds (P.foot v).result ↔ (n = 0 → Spellable d ∧ ∀ axis, Roundable (p.at axis)) := by
  by_cases proper : n = 0
  · subst proper
    obtain ⟨product, multiplied, product_value⟩ := Vector.dot_exact plane.normal point
    obtain ⟨height, added, height_value⟩ := Scalar.add_exact product_value plane.offset
    obtain ⟨square, squared, square_value⟩ := Vector.dot_exact plane.normal plane.normal
    rw [Point.zero_dot, zero_add] at height_value
    rw [Point.zero_dot] at square_value
    rw [foot, multiplied, squared]
    simp only [Noted.lift_ok, Noted.done_bind, added, true_implies]
    rw [Noted.succeeds_bind (p := ∀ axis, Roundable (p.at axis)) fun c divided => ?_,
      Scalar.succeeds_divide_exact height_value square_value]
    · simp
    · cases Scalar.eq_undefined_of_divide height_value square_value divided
      obtain ⟨x, y, z, scaled⟩ := Vector.scale_undefined plane.normal
      rw [scaled]
      exact Vector.succeeds_sub_floats point
  · obtain ⟨w, dropped, -⟩ := foot_exact proper plane point
    rw [dropped]
    exact iff_of_true ⟨w, rfl⟩ fun vanishes => absurd vanishes proper

/-- A line meets a plane without a normal in no single point, so its projection begins at the foot
of its base. -/
theorem anchor_of_zero (plane : P.Denotes 0 d) (line : l.Denotes b r)
    (next : Vector → Computation Element) :
    (P.intersectionWithLine l >>= fun
      | some (.vector hit) => pure hit >>= next
      | _ => P.foot l.base >>= next) = P.foot l.base >>= next := by
  obtain ⟨o, met, shows⟩ := intersectionWithLine_exact line plane
  rw [met, Noted.done_bind]
  rw [Figure.piercing, if_pos (Point.zero_dot r)] at shows
  split at shows
  · cases shows with
    | some shown =>
      cases shown
      rfl
  · cases shows
    rfl

theorem succeeds_projectionOfLine (plane : P.Denotes n d) (line : l.Denotes b r) :
    Succeeds (P.projectionOfLine l).result ↔ (n = 0 → Spellable d ∧
      (∀ axis, Roundable (b.at axis)) ∧ ∀ axis, Roundable (r.at axis)) := by
  by_cases proper : n = 0
  · subst proper
    obtain ⟨product, multiplied, product_value⟩ := Vector.dot_exact line.direction plane.normal
    obtain ⟨square, squared, square_value⟩ := Vector.dot_exact plane.normal plane.normal
    rw [Point.dot_comm, Point.zero_dot] at product_value
    rw [Point.zero_dot] at square_value
    unfold projectionOfLine
    simp only [multiplied, squared, Noted.lift_ok, Noted.done_bind, true_implies]
    rw [Noted.succeeds_bind (p := (∀ axis, Roundable (r.at axis)) ∧ Spellable d ∧
        ∀ axis, Roundable (b.at axis)) fun c divided => ?_,
      Scalar.succeeds_divide_exact product_value square_value]
    · simp only [spellable_zero, implies_true, true_and]
      tauto
    · cases Scalar.eq_undefined_of_divide product_value square_value divided
      obtain ⟨x, y, z, scaled⟩ := Vector.scale_undefined plane.normal
      rw [scaled, Noted.lift_ok, Noted.done_bind, Noted.succeeds_bind fun direction _ => ?_]
      · exact and_congr_left fun _ => Vector.succeeds_sub_floats line.direction
      · have dropped := anchor_of_zero plane line fun anchor =>
          pure (if direction.isZero then .vector anchor else .line ⟨anchor, direction⟩)
        refine (iff_of_eq (congrArg (Succeeds ·.result) dropped)).trans ?_
        rw [Noted.succeeds_bind fun anchor _ => succeeds_pure _, succeeds_foot plane line.base,
          and_true, imp_iff_right rfl]
  · obtain ⟨e, projected, -⟩ := projectionOfLine_exact proper plane line
    rw [projected]
    exact iff_of_true ⟨e, rfl⟩ fun vanishes => absurd vanishes proper

end Plane

end

/-- A plane of exact numbers in either notation, and its equation. -/
inductive AnyPlane.HasEquation : AnyPlane → Point → Rat → Prop
  | plane {P : Plane} {n : Point} {d : Rat} (denotes : P.Denotes n d) : HasEquation (.plane P) n d
  | span {S : Span} {b u v : Point} (denotes : S.Denotes b u v) :
    HasEquation (.span S) (u.cross v) (-b.dot (u.cross v))

namespace AnyPlane

variable {P : AnyPlane} {n : Point} {d : Rat}

theorem succeeds_intercepts (equation : P.HasEquation n d) :
    Succeeds P.intercepts.result ↔ (n.x = 0 ∨ n.y = 0 ∨ n.z = 0 → Spellable d) := by
  cases equation with
  | plane denotes => exact Plane.succeeds_intercepts denotes
  | span denotes =>
    obtain ⟨Q, converted, plane⟩ := denotes.toPlane
    rw [intercepts, toPlane, converted, Noted.lift_ok, Noted.done_bind]
    exact Plane.succeeds_intercepts plane

theorem succeeds_toSpan (equation : P.HasEquation n d) :
    Succeeds P.toSpan.result ↔ ((∃ Q, P = .plane Q) → n = 0 → Spellable d) := by
  cases equation with
  | plane denotes =>
    rw [imp_iff_right ⟨_, rfl⟩]
    exact Plane.succeeds_toSpan denotes
  | span denotes => exact iff_of_true ⟨_, rfl⟩ nofun

end AnyPlane

namespace Element

/-- What the projection of an exact element on a plane without a normal takes: that the offset of
the plane can be written, and the numbers of the element rounded. -/
def Admits : Element → Element → Prop
  | plane P, e => P.normal.value? = some 0 →
    (∀ d, P.offset.rational? = some d → Spellable d) ∧
      ∀ a ∈ e.numbers, ∀ q, a.rational? = some q → Roundable q
  | vector _, _ | line _, _ | span _, _ => True

variable {P : Plane} {l : Line} {v : Vector} {x y : Element} {n p b r : Point} {d : Rat}

theorem roundable_numbers (exact : v.value? = some p) :
    (∀ a ∈ v.toList, ∀ q, a.rational? = some q → Roundable q) ↔
      ∀ axis, Roundable (p.at axis) := by
  have component (axis : Axis) : (∀ q, (v.at axis).rational? = some q → Roundable q) ↔
      Roundable (p.at axis) := by
    rw [Vector.at_exact exact axis]
    simp
  simp only [← component, Vector.toList, List.forall_mem_cons, List.not_mem_nil, false_implies,
    implies_true, and_true]
  constructor
  · rintro ⟨first, second, third⟩ axis
    cases axis with
    | x => exact first
    | y => exact second
    | z => exact third
  · intro each
    exact ⟨each .x, each .y, each .z⟩

theorem admits_vector (plane : P.Denotes n d) (point : v.value? = some p) :
    (Element.plane P).Admits (vector v) ↔
      (n = 0 → Spellable d ∧ ∀ axis, Roundable (p.at axis)) := by
  rw [Admits, plane.normal, plane.offset, numbers, roundable_numbers point]
  simp

theorem admits_line (plane : P.Denotes n d) (line : l.Denotes b r) :
    (Element.plane P).Admits (Element.line l) ↔ (n = 0 → Spellable d ∧
      (∀ axis, Roundable (b.at axis)) ∧ ∀ axis, Roundable (r.at axis)) := by
  rw [Admits, plane.normal, plane.offset, numbers, List.forall_mem_append,
    roundable_numbers line.base, roundable_numbers line.direction]
  simp

theorem succeeds_projection {m : Computation Element} (first : x.IsExact) (second : y.IsExact)
    (found : x.projection? y = some m) : Succeeds m.result ↔ x.Admits y ∧ y.Admits x := by
  have moved (k : Computation Vector) : Succeeds (do return .vector (← k) :
      Computation Element).result ↔ Succeeds k.result := by
    rw [Noted.succeeds_bind fun _ _ => succeeds_pure _, and_true]
  unfold projection? at found
  split at found
  · cases found
    obtain ⟨p, left⟩ := isExact_vector.mp first
    obtain ⟨q, right⟩ := isExact_vector.mp second
    rw [moved]
    exact iff_of_true (Vector.succeeds_projection left right) ⟨trivial, trivial⟩
  · cases found
    obtain ⟨b, r, line⟩ := isExact_line.mp first
    obtain ⟨n, d, plane⟩ := isExact_plane.mp second
    rw [Plane.succeeds_projectionOfLine plane line, admits_line plane line, Admits, true_and]
  · cases found
    obtain ⟨n, d, plane⟩ := isExact_plane.mp first
    obtain ⟨p, point⟩ := isExact_vector.mp second
    rw [moved, Plane.succeeds_foot plane point, admits_vector plane point, Admits, and_true]
  · cases found

end Element

theorem succeeds_operate_projection {a b f g : Element} (a_exact : a.IsExact)
    (b_exact : b.IsExact) (first : a.toEquation = .ok f) (second : b.toEquation = .ok g)
    (supported : Supports "projection" (Operands.inOrder f g).first.kind
      (Operands.inOrder f g).second.kind) :
    Succeeds (operate "projection" a b).result ↔ f.Admits g ∧ g.Admits f := by
  obtain ⟨f', f_equation, f_exact, -⟩ := a_exact.toEquation
  obtain ⟨g', g_equation, g_exact, -⟩ := b_exact.toEquation
  cases first.symm.trans f_equation
  cases second.symm.trans g_equation
  have listed : method? "projection" (Operands.inOrder f g).first (Operands.inOrder f g).second ≠
      none := fun missing => method?_eq_none_iff.mp missing supported
  obtain ⟨m, found⟩ := Option.ne_none_iff_exists'.mp listed
  have method := (method?_label .projection _ _).symm.trans found
  obtain ⟨k, projected, rfl⟩ := Option.map_eq_some_iff.mp method
  have run : (operate "projection" a b).result = _ := (operate_of_method first second method).1
  rw [run, Noted.succeeds_bind fun _ _ => succeeds_pure _, and_true]
  rcases Operands.inOrder_cases f g with ⟨here, there⟩ | ⟨here, there⟩
  · rw [here, there] at projected
    exact Element.succeeds_projection f_exact g_exact projected
  · rw [here, there] at projected
    rw [and_comm]
    exact Element.succeeds_projection g_exact f_exact projected

/-- What is divided by an exact zero is undefined, with one warning, unless it has too many digits
to be written in the warning. So the intercepts of an exact plane, its conversion to a span and the
projections of exact elements have a value, of undefined components where they divide by zero,
unless the offset that is divided by zero has too many digits, or a number that is projected on a
plane without a normal is beyond the doubles. -/
theorem zero_divisors_bounded (d : Rat) :
    (∀ a b : Scalar, a.rational? = some d → b.rational? = some 0 →
      (Spellable d → ∃ above, a.text = .ok above ∧
        a.divide b = ⟨[.warning ⟨.division, "Division by zero (" ++ above ++ " / 0) gives NaN"⟩],
          .ok .undefined⟩) ∧
      (¬Spellable d → a.divide b = ⟨[], .error (.refused (.digits .writing))⟩)) ∧
    (∀ (P : AnyPlane) (n : Point), P.HasEquation n d →
      (Succeeds P.intercepts.result ↔ (n.x = 0 ∨ n.y = 0 ∨ n.z = 0 → Spellable d))) ∧
    (∀ (P : AnyPlane) (n : Point), P.HasEquation n d →
      (Succeeds P.toSpan.result ↔ ((∃ Q, P = .plane Q) → n = 0 → Spellable d))) ∧
    ∀ e f x y : Element, e.IsExact → f.IsExact → e.toEquation = .ok x → f.toEquation = .ok y →
      Supports "projection" (Operands.inOrder x y).first.kind
        (Operands.inOrder x y).second.kind →
      (Succeeds (operate "projection" e f).result ↔ x.Admits y ∧ y.Admits x) := by
  refine ⟨?division, ?intercepts, ?span, ?projection⟩
  case division => exact fun a b dividend divisor => Scalar.divide_zero dividend divisor
  case intercepts => exact fun P n equation => AnyPlane.succeeds_intercepts equation
  case span => exact fun P n equation => AnyPlane.succeeds_toSpan equation
  case projection =>
    intro e f x y e_exact f_exact first second supported
    exact succeeds_operate_projection e_exact f_exact first second supported

/-- Numbers of too many digits that are divided by zero, and one beyond the doubles that is
projected on a plane without a normal. -/
theorem zero_divisors_bounded_large :
    (Scalar.int (10 ^ digitLimit)).divide 0 = ⟨[], .error (.refused (.digits .writing))⟩ ∧
      ¬Succeeds (AnyPlane.plane ⟨⟨0, 0, 0⟩, .int (10 ^ digitLimit)⟩).intercepts.result ∧
      ¬Succeeds (AnyPlane.plane ⟨⟨0, 0, 0⟩, .int (10 ^ digitLimit)⟩).toSpan.result ∧
      ¬Succeeds (operate "projection" (.plane ⟨⟨0, 0, 0⟩, 1⟩)
        (.vector ⟨.int (10 ^ 400), 0, 0⟩)).result := by
  have long : ¬Spellable ((10 ^ digitLimit : Int) : Rat) := by
    simp [Spellable, Int.natAbs_pow]
  have beyond : ¬Roundable ((10 ^ 400 : Int) : Rat) := by
    unfold Roundable
    decide +kernel
  have equation : (AnyPlane.plane ⟨⟨0, 0, 0⟩, .int (10 ^ digitLimit)⟩).HasEquation ⟨0, 0, 0⟩
      ((10 ^ digitLimit : Int) : Rat) := .plane ⟨rfl, rfl⟩
  have plane : (Element.plane ⟨⟨0, 0, 0⟩, 1⟩).IsExact :=
    Element.isExact_plane.mpr ⟨0, 1, rfl, rfl⟩
  have vector : (Element.vector ⟨.int (10 ^ 400), 0, 0⟩).IsExact :=
    Element.isExact_vector.mpr ⟨_, rfl⟩
  have supported : Supports "projection" .plane .vector := ⟨.projection, rfl, by decide⟩
  obtain ⟨division, intercepts, span, projection⟩ :=
    zero_divisors_bounded ((10 ^ digitLimit : Int) : Rat)
  refine ⟨(division _ 0 rfl rfl).2 long, fun given => ?_, fun given => ?_, fun given => ?_⟩
  · exact long ((intercepts _ _ equation).mp given (.inl rfl))
  · exact long ((span _ _ equation).mp given ⟨_, rfl⟩ rfl)
  · obtain ⟨admits, -⟩ := (projection _ _ _ _ plane vector rfl rfl supported).mp given
    exact beyond ((admits rfl).2 _ (List.mem_cons_self ..) _ rfl)

end SolidGeometry
