import SolidGeometry.Proofs.Geometry.Reports

namespace SolidGeometry

/-- A computation warns of nothing but divisions by zero. -/
def Noted.DividesOnly {ε α : Type} (m : Noted ε α) : Prop := ∀ w ∈ m.warnings, w.code = .division

namespace Noted

variable {ε α β : Type}

@[simp] theorem dividesOnly_pure (a : α) : (pure a : Noted ε α).DividesOnly := nofun

@[simp] theorem dividesOnly_lift (r : Except ε α) : (liftM r : Noted ε α).DividesOnly := nofun

@[simp] theorem dividesOnly_warn (detail : String) :
    (Noted.warn .division detail : Noted ε Unit).DividesOnly := by
  intro w listed
  rw [List.mem_singleton.mp listed]

@[simp] theorem dividesOnly_bind {m : Noted ε α} {f : α → Noted ε β} :
    (m >>= f).DividesOnly ↔ m.DividesOnly ∧ ∀ a, m.result = .ok a → (f a).DividesOnly := by
  cases done : m.result with
  | ok a =>
    simp only [DividesOnly, warnings_bind done, List.mem_append, or_imp, forall_and]
    simp
  | error e => simp [DividesOnly, bind_error f done, warnings]

@[simp] theorem dividesOnly_map {m : Noted ε α} {f : α → β} :
    (f <$> m).DividesOnly ↔ m.DividesOnly := by
  rw [map_eq_pure_bind, dividesOnly_bind]
  simp only [dividesOnly_pure, implies_true, and_true]

end Noted

@[simp] theorem Scalar.dividesOnly_divide (a b : Scalar) : (a.divide b).DividesOnly := by
  unfold divide
  split
  · simp
  · split <;> simp

namespace Vector

variable (u v : Vector) (c : Scalar)

@[simp] theorem dividesOnly_divide : (v.divide c).DividesOnly := by simp [divide]

@[simp] theorem dividesOnly_projection : (u.projection v).DividesOnly := by simp [projection]

end Vector

namespace Line

variable (l k : Line) (p : Vector)

@[simp] theorem dividesOnly_distanceToPoint : (l.distanceToPoint p).DividesOnly := by
  simp [distanceToPoint]

@[simp] theorem dividesOnly_distance : (l.distance k).DividesOnly := by
  unfold distance
  refine Noted.dividesOnly_bind.mpr ⟨Noted.dividesOnly_lift _, fun n _ => ?_⟩
  split <;> simp

@[simp] theorem dividesOnly_intersection : (l.intersection k).DividesOnly := by
  unfold intersection
  refine Noted.dividesOnly_bind.mpr ⟨Noted.dividesOnly_lift _, fun gap _ => ?_⟩
  refine Noted.dividesOnly_bind.mpr ⟨Noted.dividesOnly_lift _, fun n _ => ?_⟩
  split
  · simp
  · refine Noted.dividesOnly_bind.mpr ⟨Noted.dividesOnly_lift _, fun height _ => ?_⟩
    split <;> simp

@[simp] theorem dividesOnly_isSkewedTo : (l.isSkewedTo k).DividesOnly := by
  unfold isSkewedTo
  refine Noted.dividesOnly_bind.mpr ⟨Noted.dividesOnly_lift _, fun angle _ => ?_⟩
  split <;> simp

end Line

namespace Plane

variable (p q : Plane) (l : Line) (v : Vector)

@[simp] theorem dividesOnly_distanceToPoint : (p.distanceToPoint v).DividesOnly := by
  simp [distanceToPoint]

@[simp] theorem dividesOnly_distanceToLine : (p.distanceToLine l).DividesOnly := by
  unfold distanceToLine
  refine Noted.dividesOnly_bind.mpr ⟨Noted.dividesOnly_lift _, fun angle _ => ?_⟩
  split <;> simp

@[simp] theorem dividesOnly_distance : (p.distance q).DividesOnly := by
  unfold distance
  refine Noted.dividesOnly_bind.mpr ⟨Noted.dividesOnly_lift _, fun angle _ => ?_⟩
  split <;> simp [axisPoint]

@[simp] theorem dividesOnly_intersection : (p.intersection q).DividesOnly := by
  unfold intersection
  refine Noted.dividesOnly_bind.mpr ⟨Noted.dividesOnly_lift _, fun r _ => ?_⟩
  split <;> simp [meet]

@[simp] theorem dividesOnly_intersectionWithLine : (p.intersectionWithLine l).DividesOnly := by
  unfold intersectionWithLine
  refine Noted.dividesOnly_bind.mpr ⟨Noted.dividesOnly_lift _, fun slope _ => ?_⟩
  refine Noted.dividesOnly_bind.mpr ⟨Noted.dividesOnly_lift _, fun base _ => ?_⟩
  refine Noted.dividesOnly_bind.mpr ⟨Noted.dividesOnly_lift _, fun height _ => ?_⟩
  split <;> simp

@[simp] theorem dividesOnly_foot : (p.foot v).DividesOnly := by simp [foot]

@[simp] theorem dividesOnly_projectionOfLine : (p.projectionOfLine l).DividesOnly := by
  simp only [projectionOfLine, Noted.dividesOnly_bind, Noted.dividesOnly_lift,
    Scalar.dividesOnly_divide, dividesOnly_intersectionWithLine, true_and]
  intro above _ under _ factor _ along _ direction _ common _
  split <;> simp

end Plane

section

variable {a b : Element}

theorem Element.dividesOnly_distance {m : Computation Scalar} (found : a.distance? b = some m) :
    m.DividesOnly := by
  unfold distance? at found
  split at found <;> cases found <;> simp

theorem Element.dividesOnly_intersection {m : Computation (Option Element)}
    (found : a.intersection? b = some m) : m.DividesOnly := by
  unfold intersection? at found
  split at found <;> cases found <;> simp

theorem Element.dividesOnly_projection {m : Computation Element}
    (found : a.projection? b = some m) : m.DividesOnly := by
  unfold projection? at found
  split at found <;> cases found <;> simp

/-- A method warns of divisions by zero only, whatever its operands are. -/
theorem Operation.dividesOnly_method {o : Operation} {m : Computation Value}
    (supported : o.method? a b = some m) : m.DividesOnly := by
  unfold method? at supported
  cases o with
  | angle =>
    obtain ⟨k, -, rfl⟩ := Option.map_eq_some_iff.mp supported
    simp
  | parallel =>
    obtain ⟨k, -, rfl⟩ := Option.map_eq_some_iff.mp supported
    simp
  | perpendicular =>
    obtain ⟨k, -, rfl⟩ := Option.map_eq_some_iff.mp supported
    simp
  | distance =>
    obtain ⟨k, found, rfl⟩ := Option.map_eq_some_iff.mp supported
    simp [Element.dividesOnly_distance found]
  | on =>
    obtain ⟨k, found, rfl⟩ := Option.map_eq_some_iff.mp supported
    simp [Element.dividesOnly_distance found]
  | intersection =>
    obtain ⟨k, found, rfl⟩ := Option.map_eq_some_iff.mp supported
    simp [Element.dividesOnly_intersection found]
  | projection =>
    obtain ⟨k, found, rfl⟩ := Option.map_eq_some_iff.mp supported
    simp [Element.dividesOnly_projection found]
  | skewed =>
    dsimp only at supported
    split at supported
    · cases supported
      simp
    · cases supported

/-- The pairs of kinds for which an operation has a method. -/
def Operation.kindPairs : Operation → List (Kind × Kind)
  | angle | parallel | perpendicular | distance | on =>
    [(.vector, .vector), (.line, .vector), (.line, .line), (.plane, .vector), (.plane, .plane),
      (.line, .plane)]
  | intersection => [(.line, .line), (.plane, .plane), (.line, .plane)]
  | projection => [(.vector, .vector), (.line, .plane), (.plane, .vector)]
  | skewed => [(.line, .line)]

theorem Operation.isSome_method? (o : Operation) (a b : Element) :
    (o.method? a b).isSome = decide ((a.kind, b.kind) ∈ o.kindPairs) := by
  cases o <;> cases a <;> cases b <;> rfl

/-- The named operation has a method for a pair of kinds. -/
def Supports (name : String) (k l : Kind) : Prop :=
  ∃ o : Operation, o.label = name ∧ (k, l) ∈ o.kindPairs

theorem method?_eq_none_iff {name : String} :
    method? name a b = none ↔ ¬Supports name a.kind b.kind := by
  constructor
  · rintro missing ⟨o, rfl, listed⟩
    have found := (o.isSome_method? a b).trans (decide_eq_true listed)
    rw [← method?_label, missing] at found
    cases found
  · intro unsupported
    by_contra some
    obtain ⟨m, found⟩ := Option.ne_none_iff_exists'.mp some
    obtain ⟨o, named, supported⟩ := Option.bind_eq_some_iff.mp found
    refine unsupported ⟨o, by simpa using List.find?_some named, of_decide_eq_true ?_⟩
    rw [← o.isSome_method?, supported]
    rfl

end

/-- An element that lacks the direction or the normal that it needs. -/
def Element.isDegenerate : Element → Bool
  | .line l => l.direction.isZero
  | .plane P => P.normal.isZero
  | _ => false

/-- The warning about a line without a direction or a plane without a normal. -/
inductive Element.ReportedBy : Element → Warning → Prop
  | line (l : Line) : ReportedBy (.line l) ⟨.operand, "Line has a zero direction vector"⟩
  | plane (P : Plane) : ReportedBy (.plane P) ⟨.operand, "Plane has a zero normal vector"⟩

/-- What is reported of a list of elements: one warning for each that is degenerate. -/
theorem Element.reported (elements : List Element) :
    List.Forall₂ ReportedBy (elements.filter isDegenerate) (elements.filterMap degeneracy?) := by
  induction elements with
  | nil => exact .nil
  | cons e rest ih =>
    cases e with
    | line l =>
      by_cases zero : l.direction.isZero = true
      · simpa [isDegenerate, degeneracy?, zero] using ⟨.line l, ih⟩
      · simpa [isDegenerate, degeneracy?, zero] using ih
    | plane P =>
      by_cases zero : P.normal.isZero = true
      · simpa [isDegenerate, degeneracy?, zero] using ⟨.plane P, ih⟩
      · simpa [isDegenerate, degeneracy?, zero] using ih
    | vector v => exact ih
    | span S => exact ih

theorem Operands.rank_inOrder (f g : Element) :
    (inOrder f g).first.kind.rank ≤ (inOrder f g).second.kind.rank := by
  unfold inOrder
  split
  · rename_i behind
    exact behind.le
  · rename_i before
    exact not_lt.mp before

/-- The operands of an operation are its elements by their equations, in the order of their kinds.
If the operation has no method for them, it ends in the fault that says so and warns of nothing. If
it has one, each operand without a direction or a normal is reported once, in the order of the
operands, and whatever is warned of behind that is a division by zero. -/
theorem operands_reported_once (name : String) {a b f g : Element} (first : a.toEquation = .ok f)
    (second : b.toEquation = .ok g) :
    ∃ x y, (x = f ∧ y = g ∨ x = g ∧ y = f) ∧ x.kind.rank ≤ y.kind.rank ∧
      (¬Supports name x.kind y.kind →
        (operate name a b).result = .error (.noMethod name [x.kind.label, y.kind.label]) ∧
          (operate name a b).warnings = []) ∧
      (Supports name x.kind y.kind → ∃ reports later,
        (operate name a b).warnings = reports ++ later ∧
          List.Forall₂ Element.ReportedBy ([x, y].filter Element.isDegenerate) reports ∧
          ∀ w ∈ later, w.code = .division) := by
  refine ⟨_, _, Operands.inOrder_cases f g, Operands.rank_inOrder f g, ?_⟩
  rw [(operate_alike name first second).result, (operate_alike name first second).warnings]
  generalize (Operands.inOrder f g).first = x
  generalize (Operands.inOrder f g).second = y
  constructor
  · intro unsupported
    rw [runMethod, method?_eq_none_iff.mpr unsupported]
    exact ⟨rfl, rfl⟩
  · rintro ⟨o, rfl, listed⟩
    obtain ⟨m, supported⟩ :=
      Option.isSome_iff_exists.mp ((o.isSome_method? x y).trans (decide_eq_true listed))
    refine ⟨_, m.warnings, ?_, Element.reported [x, y], Operation.dividesOnly_method supported⟩
    rw [(runMethod_of_method supported).2, List.filterMap_eq_flatMap_toList]
    simp

/-- A line without a direction is projected on a plane by two directions that have no normal. Both
are reported, the line first, and then the divisions by the length of the normal. -/
theorem operands_reported_once_swapped : ∃ later,
    (operate "projection" (.span ⟨⟨0, 0, 1⟩, ⟨1, 0, 0⟩, ⟨2, 0, 0⟩⟩)
        (.line ⟨⟨1, 2, 3⟩, ⟨0, 0, 0⟩⟩)).warnings =
      ⟨.operand, "Line has a zero direction vector"⟩ ::
        ⟨.operand, "Plane has a zero normal vector"⟩ :: later ∧
      later.length = 2 ∧ ∀ w ∈ later, w.code = .division := by
  have first : (Element.span ⟨⟨0, 0, 1⟩, ⟨1, 0, 0⟩, ⟨2, 0, 0⟩⟩).toEquation =
      .ok (.plane ⟨⟨0, 0, 0⟩, 0⟩) := rfl
  have second : (Element.line ⟨⟨1, 2, 3⟩, ⟨0, 0, 0⟩⟩).toEquation =
      .ok (.line ⟨⟨1, 2, 3⟩, ⟨0, 0, 0⟩⟩) := rfl
  have count : (operate "projection" (.span ⟨⟨0, 0, 1⟩, ⟨1, 0, 0⟩, ⟨2, 0, 0⟩⟩)
      (.line ⟨⟨1, 2, 3⟩, ⟨0, 0, 0⟩⟩)).warnings.length = 4 := by decide +kernel
  obtain ⟨x, y, operands, order, -, reported⟩ := operands_reported_once "projection" first second
  rcases operands with ⟨rfl, rfl⟩ | ⟨rfl, rfl⟩
  · exact absurd order (by decide)
  obtain ⟨reports, later, warnings, each, divisions⟩ :=
    reported ⟨.projection, rfl, by decide⟩
  obtain ⟨⟩ | ⟨⟨line⟩, ⟨⟩ | ⟨⟨plane⟩, ⟨⟩⟩⟩ := each
  rw [warnings] at count ⊢
  exact ⟨later, rfl, by simpa using count, divisions⟩

end SolidGeometry
