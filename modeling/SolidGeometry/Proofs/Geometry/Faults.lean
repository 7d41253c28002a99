import SolidGeometry.Operation.Methods
import SolidGeometry.Proofs.Geometry.Domains

namespace SolidGeometry
open Number

/-- The functions of vectors, of planes and of parameters and points by name. -/
def elementFunctions : List String :=
  ["length", "normalize", "dotp", "cross", "area", "between", "param", "three-points", "normal",
    "lwith", "pwith", "line", "plane"]

/-- The functions of expressions by name. -/
def functionNames : List String := Operation.all.map Operation.label ++ elementFunctions

/-- A fault that is told to users as such: arithmetic out of range, an integer with too many digits,
or a known function of operands that it does not apply to. -/
inductive Fault.Foreseen : Fault → Prop where
  | arithmetic (cause : ArithmeticFault) : Foreseen (.arithmetic cause)
  | digits (cause : DigitFault) : Foreseen (.refused (.digits cause))
  | noMethod {function : String} (known : function ∈ functionNames) (kinds : List String) :
    Foreseen (.noMethod function kinds)

/-- A result that is no other fault. -/
def Sound {α : Type} (r : Checked α) : Prop := ∀ fault, r = .error fault → fault.Foreseen

section

variable {α β : Type}

@[simp] theorem sound_ok (a : α) : Sound (.ok a : Checked α) := by
  intro fault failed
  cases failed

@[simp] theorem sound_pure (a : α) : Sound (pure a : Checked α) := sound_ok a

@[simp] theorem sound_error {fault : Fault} : Sound (.error fault : Checked α) ↔ fault.Foreseen := by
  constructor
  · intro sound
    exact sound fault rfl
  · rintro foreseen _ failed
    cases failed
    exact foreseen

@[simp] theorem sound_bind {m : Checked α} {f : α → Checked β} :
    Sound (m >>= f) ↔ Sound m ∧ ∀ a, m = .ok a → Sound (f a) := by
  cases m with
  | ok a => simp [bind, Except.bind]
  | error fault => simp [bind, Except.bind]

@[simp] theorem sound_map {m : Checked α} {f : α → β} : Sound (f <$> m) ↔ Sound m := by
  cases m with
  | ok a => simp [Functor.map, Except.map]
  | error fault => simp [Functor.map, Except.map]

@[simp] theorem Noted.sound_bind {m : Computation α} {f : α → Computation β} :
    Sound (m >>= f).result ↔ Sound m.result ∧ ∀ a, m.result = .ok a → Sound (f a).result := by
  cases done : m.result with
  | ok a => simp [Noted.bind_ok f done]
  | error fault => simp [Noted.bind_error f done]

@[simp] theorem Noted.sound_map {m : Computation α} {f : α → β} :
    Sound (f <$> m).result ↔ Sound m.result := by
  rw [map_eq_pure_bind, Noted.sound_bind]
  simp only [Noted.pure_result, sound_ok, implies_true, and_true]

@[simp] theorem Noted.sound_lift (r : Checked α) : Sound (liftM r : Computation α).result ↔ Sound r :=
  Iff.rfl

@[simp] theorem Noted.sound_warn (code : Code) (detail : String) :
    Sound (Noted.warn code detail : Computation Unit).result :=
  sound_ok ()

@[simp] theorem Noted.sound_log (source : LogSource) (message : String) :
    Sound (Noted.log source message : Computation Unit).result :=
  sound_ok ()

end

namespace Scalar

variable (a b : Scalar)

@[simp] theorem sound_toFloat : Sound a.toFloat := by
  cases a with
  | int n =>
    rw [toFloat]
    cases nearest? n with
    | none => exact sound_error.mpr (.arithmetic _)
    | some x => exact sound_ok x
  | ratio q =>
    rw [toFloat]
    cases nearest? q with
    | none => exact sound_error.mpr (.arithmetic _)
    | some x => exact sound_ok x
  | float x => exact sound_ok x
  | undefined => exact sound_ok notANumber

theorem sound_combine (onInt : Int → Int → Int) (onRat : Rat → Rat → Rat)
    (onFloat : Float → Float → Float) : Sound (combine onInt onRat onFloat a b) := by
  cases a <;> cases b <;> simp [combine]

@[simp] theorem sound_add : Sound (a.add b) := sound_combine a b _ _ _

@[simp] theorem sound_sub : Sound (a.sub b) := sound_combine a b _ _ _

@[simp] theorem sound_mul : Sound (a.mul b) := sound_combine a b _ _ _

@[simp] theorem sound_floatQuotient : Sound (a.floatQuotient b) := by
  refine sound_bind.mpr ⟨sound_toFloat a, fun x _ => ?_⟩
  refine sound_bind.mpr ⟨sound_toFloat b, fun y _ => ?_⟩
  split
  · exact sound_error.mpr (.arithmetic _)
  · exact sound_ok _

theorem sound_sqrt {a : Scalar} (proper : a.NotNegative) : Sound a.sqrt := by
  rw [sqrt_eq proper]
  simp

@[simp] theorem sound_writeInt (n : Int) : Sound (writeInt n) := by
  unfold writeInt
  split
  · exact sound_ok _
  · exact sound_error.mpr (.digits _)

@[simp] theorem sound_text : Sound a.text := by
  cases a with
  | int n => exact sound_writeInt n
  | ratio q =>
    rw [text]
    split <;> simp
  | float x => exact sound_ok _
  | undefined => exact sound_ok _

@[simp] theorem sound_divide : Sound (a.divide b).result := by
  unfold divide
  split
  · simp
  · split <;> simp

end Scalar

section

variable {m n : Checked Scalar}

@[simp] theorem sound_sum (first : Sound m) (second : Sound n) : Sound (m + n) := by
  change Sound (m >>= fun a => n >>= fun b => a.add b)
  simp [first, second]

@[simp] theorem sound_difference (first : Sound m) (second : Sound n) : Sound (m - n) := by
  change Sound (m >>= fun a => n >>= fun b => a.sub b)
  simp [first, second]

@[simp] theorem sound_product (a b : Scalar) : Sound ((a : Checked Scalar) * (b : Checked Scalar)) :=
  a.sound_mul b

end

namespace Vector

variable (u v : Vector) (c : Scalar)

@[simp] theorem sound_ofChecked {x y z : Checked Scalar} (first : Sound x) (second : Sound y)
    (third : Sound z) : Sound (ofChecked x y z) := by
  simp [ofChecked, first, second, third]

@[simp] theorem sound_add : Sound (u.add v) := by simp [add]

@[simp] theorem sound_sub : Sound (u.sub v) := by simp [sub]

@[simp] theorem sound_scale : Sound (v.scale c) := by simp [scale]

@[simp] theorem sound_between : Sound (u.between v) := sound_sub v u

@[simp] theorem sound_dot : Sound (u.dot v) := by simp [dot]

@[simp] theorem sound_cross : Sound (u.cross v) := by simp [cross]

@[simp] theorem sound_length : Sound v.length := by
  refine sound_bind.mpr ⟨sound_dot v v, fun d squared => ?_⟩
  exact Scalar.sound_sqrt (notNegative_dot_self squared)

@[simp] theorem sound_area : Sound (u.area v) := by simp [area]

@[simp] theorem sound_normalize : Sound v.normalize.result := by
  unfold normalize
  refine Noted.sound_bind.mpr ⟨sound_length v, fun n _ => ?_⟩
  split <;> simp

@[simp] theorem sound_divide : Sound (v.divide c).result := by simp [divide]

@[simp] theorem sound_pivot {v : Vector} (proper : v.isZero = false) : Sound v.pivot := by
  obtain ⟨axis, found, _⟩ := exists_pivot proper
  rw [found]
  exact sound_ok axis

/-- The product of two squares has a root, and no cosine is beyond the range of the cosine. -/
@[simp] theorem sound_angle : Sound (u.angle v) := by
  refine sound_bind.mpr ⟨sound_dot u v, fun d _ => ?_⟩
  refine sound_bind.mpr ⟨sound_dot u u, fun l left => ?_⟩
  refine sound_bind.mpr ⟨sound_dot v v, fun r right => ?_⟩
  refine sound_bind.mpr ⟨l.sound_mul r, fun squares product => ?_⟩
  have proper := (notNegative_dot_self left).mul (notNegative_dot_self right) product
  split
  · simp
  split
  · simp
  refine sound_bind.mpr ⟨d.sound_mul d, fun square _ => ?_⟩
  split
  · simp
  refine sound_bind.mpr ⟨Scalar.sound_sqrt proper, fun root _ => ?_⟩
  refine sound_bind.mpr ⟨d.sound_floatQuotient _, fun cosine _ => ?_⟩
  split
  · simp
  rw [arcCosine_clampCosine]
  simp

@[simp] theorem sound_angleOrZero : Sound (u.angleOrZero v) := by simp [angleOrZero]

@[simp] theorem sound_angleToPlane : Sound (u.angleToPlane v) := by simp [angleToPlane]

@[simp] theorem sound_angleOfNormals : Sound (u.angleOfNormals v) := by simp [angleOfNormals]

@[simp] theorem sound_distance : Sound (u.distance v) := by simp [distance]

@[simp] theorem sound_projection : Sound (u.projection v).result := by simp [projection]

end Vector

namespace Line

variable (l k : Line) (p : Vector) (t : Scalar)

@[simp] theorem sound_point : Sound (l.point t) := by simp [point]

@[simp] theorem sound_through (q : Vector) : Sound (Line.through p q) := by simp [through]

@[simp] theorem sound_distanceToPoint : Sound (l.distanceToPoint p).result := by
  simp [distanceToPoint]

@[simp] theorem sound_distance : Sound (l.distance k).result := by
  unfold distance
  refine Noted.sound_bind.mpr ⟨Vector.sound_cross _ _, fun n _ => ?_⟩
  split <;> simp

@[simp] theorem sound_intersection : Sound (l.intersection k).result := by
  unfold intersection
  refine Noted.sound_bind.mpr ⟨Vector.sound_between _ _, fun gap _ => ?_⟩
  refine Noted.sound_bind.mpr ⟨Vector.sound_cross _ _, fun n _ => ?_⟩
  split
  · simp
  · refine Noted.sound_bind.mpr ⟨Vector.sound_dot _ _, fun height _ => ?_⟩
    split <;> simp

@[simp] theorem sound_isSkewedTo : Sound (l.isSkewedTo k).result := by
  unfold isSkewedTo
  refine Noted.sound_bind.mpr ⟨Vector.sound_angleOrZero _ _, fun angle _ => ?_⟩
  split <;> simp

end Line

namespace Span

variable (p : Span) (s t : Scalar)

@[simp] theorem sound_point : Sound (p.point s t) := by simp [point]

@[simp] theorem sound_through (a b c : Vector) : Sound (Span.through a b c) := by simp [through]

@[simp] theorem sound_toPlane : Sound p.toPlane := by simp [toPlane]

end Span

namespace Plane

variable (p q : Plane) (l : Line) (v : Vector)

@[simp] theorem sound_through : Sound (Plane.through v u) := by simp [through]

@[simp] theorem sound_intercepts : Sound p.intercepts.result := by simp [intercepts]

@[simp] theorem sound_toSpan : Sound p.toSpan.result := by
  unfold toSpan
  dsimp only
  split <;> simp

@[simp] theorem sound_distanceToPoint : Sound (p.distanceToPoint v).result := by
  simp [distanceToPoint]

@[simp] theorem sound_distanceToLine : Sound (p.distanceToLine l).result := by
  unfold distanceToLine
  refine Noted.sound_bind.mpr ⟨Vector.sound_angleToPlane _ _, fun angle _ => ?_⟩
  split <;> simp

@[simp] theorem sound_axisPoint : Sound p.axisPoint.result := by simp [axisPoint]

@[simp] theorem sound_distance : Sound (p.distance q).result := by
  unfold distance
  refine Noted.sound_bind.mpr ⟨Vector.sound_angleOfNormals _ _, fun angle _ => ?_⟩
  split <;> simp

@[simp] theorem sound_meet (r : Vector) (pivot : Axis) : Sound (p.meet q r pivot).result := by
  simp [meet]

/-- The pivot is searched for where the cross product of the normals is not zero. -/
@[simp] theorem sound_intersection : Sound (p.intersection q).result := by
  unfold intersection
  refine Noted.sound_bind.mpr ⟨Vector.sound_cross _ _, fun r _ => ?_⟩
  split
  · simp
  · rename_i skew
    simp [Vector.sound_pivot (Bool.eq_false_iff.mpr skew)]

@[simp] theorem sound_intersectionWithLine : Sound (p.intersectionWithLine l).result := by
  unfold intersectionWithLine
  refine Noted.sound_bind.mpr ⟨Vector.sound_dot _ _, fun slope _ => ?_⟩
  refine Noted.sound_bind.mpr ⟨Vector.sound_dot _ _, fun base _ => ?_⟩
  refine Noted.sound_bind.mpr ⟨Scalar.sound_add _ _, fun height _ => ?_⟩
  split <;> simp

@[simp] theorem sound_foot : Sound (p.foot v).result := by simp [foot]

@[simp] theorem sound_projectionOfLine : Sound (p.projectionOfLine l).result := by
  unfold projectionOfLine
  refine Noted.sound_bind.mpr ⟨Vector.sound_dot _ _, fun above _ => ?_⟩
  refine Noted.sound_bind.mpr ⟨Vector.sound_dot _ _, fun under _ => ?_⟩
  refine Noted.sound_bind.mpr ⟨Scalar.sound_divide _ _, fun factor _ => ?_⟩
  refine Noted.sound_bind.mpr ⟨Vector.sound_scale _ _, fun part _ => ?_⟩
  refine Noted.sound_bind.mpr ⟨Vector.sound_sub _ _, fun direction _ => ?_⟩
  refine Noted.sound_bind.mpr ⟨sound_intersectionWithLine p l, fun hit _ => ?_⟩
  split
  · split <;> simp
  · split <;> simp

end Plane

namespace Element

variable {a b : Element}

theorem sound_angle {m : Checked Float} (found : a.angle? b = some m) : Sound m := by
  unfold angle? at found
  split at found <;> cases found <;> simp

theorem sound_distance {m : Computation Scalar} (found : a.distance? b = some m) :
    Sound m.result := by
  unfold distance? at found
  split at found <;> cases found <;> simp

theorem sound_intersection {m : Computation (Option Element)}
    (found : a.intersection? b = some m) : Sound m.result := by
  unfold intersection? at found
  split at found <;> cases found <;> simp

theorem sound_projection {m : Computation Element} (found : a.projection? b = some m) :
    Sound m.result := by
  unfold projection? at found
  split at found <;> cases found <;> simp

@[simp] theorem sound_toEquation (e : Element) : Sound e.toEquation := by
  unfold toEquation
  split <;> simp

@[simp] theorem sound_check (e : Element) : Sound e.check.result := by
  unfold check
  split
  · exact sound_ok ()
  · simp

end Element

theorem mem_functionNames {name : String} {o : Operation} (found : Operation.ofLabel? name = some o) :
    name ∈ functionNames := by
  have same : o.label = name := by
    have labelled := List.find?_some found
    simpa using labelled
  rw [functionNames, ← same]
  refine List.mem_append_left _ (List.mem_map_of_mem ?_)
  cases o <;> decide

/-- A method of an operation, whatever the elements. -/
theorem Operation.sound_method {o : Operation} {a b : Element} {method : Computation Value}
    (supported : o.method? a b = some method) : Sound method.result := by
  unfold method? at supported
  cases o with
  | angle =>
    obtain ⟨m, found, rfl⟩ := Option.map_eq_some_iff.mp supported
    simp [Element.sound_angle found]
  | parallel =>
    obtain ⟨m, found, rfl⟩ := Option.map_eq_some_iff.mp supported
    simp [Element.sound_angle found]
  | perpendicular =>
    obtain ⟨m, found, rfl⟩ := Option.map_eq_some_iff.mp supported
    simp [Element.sound_angle found]
  | distance =>
    obtain ⟨m, found, rfl⟩ := Option.map_eq_some_iff.mp supported
    simp [Element.sound_distance found]
  | on =>
    obtain ⟨m, found, rfl⟩ := Option.map_eq_some_iff.mp supported
    simp [Element.sound_distance found]
  | intersection =>
    obtain ⟨m, found, rfl⟩ := Option.map_eq_some_iff.mp supported
    simp [Element.sound_intersection found]
  | projection =>
    obtain ⟨m, found, rfl⟩ := Option.map_eq_some_iff.mp supported
    simp [Element.sound_projection found]
  | skewed =>
    dsimp only at supported
    split at supported
    · cases supported
      simp
    · cases supported

theorem sound_operate {name : String} (known : (Operation.ofLabel? name).isSome) (a b : Element) :
    Sound (operate name a b).result := by
  obtain ⟨o, found⟩ := Option.isSome_iff_exists.mp known
  refine Noted.sound_bind.mpr ⟨?_, fun operands _ => ?_⟩
  · simp [Operands.ofElements]
  have run : Sound (runMethod name operands.first operands.second).result := by
    unfold runMethod
    split
    · exact sound_error.mpr (.noMethod (mem_functionNames found) _)
    · rename_i method supported
      have sound : Sound method.result := by
        unfold method? at supported
        rw [found] at supported
        exact Operation.sound_method supported
      simp [sound]
  dsimp only
  split
  · simp [run]
  · exact run

end SolidGeometry
