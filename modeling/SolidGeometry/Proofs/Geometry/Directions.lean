import SolidGeometry.Proofs.Geometry.Touching

namespace SolidGeometry
open Number

theorem Point.cross_eq_zero_comm {p q : Point} : p.cross q = 0 ↔ q.cross p = 0 := by
  have turned (p q : Point) (parallel : p.cross q = 0) : q.cross p = 0 := by
    obtain ⟨x, y, z⟩ := Point.ext_iff.mp parallel
    simp only [cross, zero_x, zero_y, zero_z] at x y z
    ext
    · simp only [cross, zero_x]
      linarith
    · simp only [cross, zero_y]
      linarith
    · simp only [cross, zero_z]
      linarith
  exact ⟨turned p q, turned q p⟩

namespace Figure

/-- The direction of a figure: a point is taken as a free vector, a plane by its normal. -/
def heading : Figure → Point
  | point p => p
  | line _ r => r
  | plane n _ => n

/-- Whether the direction of a figure is that of its normal. -/
def isFlat : Figure → Bool
  | plane _ _ => true
  | _ => false

/-- Two directions or two planes are parallel if their headings are, a direction and a plane if the
direction is perpendicular to the normal. -/
def Parallel (A B : Figure) : Prop :=
  if A.isFlat = B.isFlat then A.heading.cross B.heading = 0 else A.heading.dot B.heading = 0

/-- Two directions or two planes are perpendicular if their headings are, a direction and a plane if
the direction is parallel to the normal. -/
def Perpendicular (A B : Figure) : Prop :=
  if A.isFlat = B.isFlat then A.heading.dot B.heading = 0 else A.heading.cross B.heading = 0

instance (A B : Figure) : Decidable (A.Parallel B) :=
  inferInstanceAs (Decidable (if A.isFlat = B.isFlat then A.heading.cross B.heading = 0
    else A.heading.dot B.heading = 0))

instance (A B : Figure) : Decidable (A.Perpendicular B) :=
  inferInstanceAs (Decidable (if A.isFlat = B.isFlat then A.heading.dot B.heading = 0
    else A.heading.cross B.heading = 0))

/-- The angle of parallel figures. Only two directions may be opposite to each other. -/
def straightAngle (A B : Figure) : Float :=
  if A.isFlat ∨ B.isFlat ∨ 0 < A.heading.dot B.heading then 0.0 else 180.0

variable {A B : Figure}

theorem parallel_comm : A.Parallel B ↔ B.Parallel A := by
  unfold Parallel
  simp only [Point.dot_comm A.heading, Point.cross_eq_zero_comm (p := A.heading),
    eq_comm (a := A.isFlat) (b := B.isFlat)]

theorem perpendicular_comm : A.Perpendicular B ↔ B.Perpendicular A := by
  unfold Perpendicular
  simp only [Point.dot_comm A.heading, Point.cross_eq_zero_comm (p := A.heading),
    eq_comm (a := A.isFlat) (b := B.isFlat)]

theorem straightAngle_comm : A.straightAngle B = B.straightAngle A := by
  unfold straightAngle
  simp only [Point.dot_comm A.heading, or_left_comm (a := A.isFlat = true)]

theorem isParallelAngle_straightAngle : isParallelAngle (A.straightAngle B) = true := by
  unfold straightAngle
  split
  · decide
  · decide

end Figure

section

variable {u v : Vector} {p q : Point} (first : u.value? = some p) (second : v.value? = some q)
  (p_nonzero : p ≠ 0) (q_nonzero : q ≠ 0)

include first second p_nonzero q_nonzero

theorem Vector.angle_straight (parallel : p.cross q = 0) :
    u.angle v = .ok (if 0 < p.dot q then 0.0 else 180.0) :=
  (angle_eq_ok first second).mpr (exactAngle?_parallel p_nonzero q_nonzero parallel)

theorem Vector.angle_right (perpendicular : p.dot q = 0) : u.angle v = .ok 90.0 := by
  have proper := mul_ne_zero (Point.dot_self_ne_zero p_nonzero) (Point.dot_self_ne_zero q_nonzero)
  have right := exactAngle?_right proper
  rwa [← perpendicular, ← angle_eq_ok first second] at right

theorem Vector.angleOrZero_straight (parallel : p.cross q = 0) :
    u.angleOrZero v = .ok (if 0 < p.dot q then 0.0 else 180.0) := by
  rw [angleOrZero, angle_straight first second p_nonzero q_nonzero parallel]
  split
  · rfl
  · rfl

theorem Vector.angleOrZero_right (perpendicular : p.dot q = 0) : u.angleOrZero v = .ok 90.0 := by
  rw [angleOrZero, angle_right first second p_nonzero q_nonzero perpendicular]
  rfl

/-- A direction in a plane is perpendicular to the normal. -/
theorem Vector.angleToPlane_flat (perpendicular : p.dot q = 0) : u.angleToPlane v = .ok 0.0 := by
  rw [angleToPlane, angle_right first second p_nonzero q_nonzero perpendicular]
  rfl

/-- A direction along the normal, or against it, is perpendicular to the plane. -/
theorem Vector.angleToPlane_steep (parallel : p.cross q = 0) : u.angleToPlane v = .ok 90.0 := by
  rw [angleToPlane, angle_straight first second p_nonzero q_nonzero parallel]
  split
  · rfl
  · rfl

theorem Vector.angleOfNormals_straight (parallel : p.cross q = 0) :
    u.angleOfNormals v = .ok 0.0 := by
  rw [angleOfNormals, angle_straight first second p_nonzero q_nonzero parallel]
  split
  · rfl
  · rfl

theorem Vector.angleOfNormals_right (perpendicular : p.dot q = 0) :
    u.angleOfNormals v = .ok 90.0 := by
  rw [angleOfNormals, angle_right first second p_nonzero q_nonzero perpendicular]
  rfl

end

/-- A computation of an angle gives the exact ones of parallel and of perpendicular figures. -/
structure Figure.AngleExact (A B : Figure) (m : Checked Float) : Prop where
  straight : A.Parallel B → m = .ok (A.straightAngle B)
  right : A.Perpendicular B → m = .ok 90.0

section

variable {u v : Vector} {A B : Figure} {m : Checked Float}

theorem Figure.AngleExact.symm (exact : A.AngleExact B m) : B.AngleExact A m where
  straight parallel := by
    rw [straightAngle_comm]
    exact exact.straight (parallel_comm.mp parallel)
  right perpendicular := exact.right (perpendicular_comm.mp perpendicular)

variable (first : u.value? = some A.heading) (second : v.value? = some B.heading)
  (A_proper : A.heading ≠ 0) (B_proper : B.heading ≠ 0)

include first second A_proper B_proper

theorem Figure.angleExact_of_directions (A_round : A.isFlat = false) (B_round : B.isFlat = false) :
    A.AngleExact B (u.angleOrZero v) where
  straight parallel := by
    rw [Parallel, if_pos (A_round.trans B_round.symm)] at parallel
    rw [Vector.angleOrZero_straight first second A_proper B_proper parallel]
    simp [straightAngle, A_round, B_round]
  right perpendicular := by
    rw [Perpendicular, if_pos (A_round.trans B_round.symm)] at perpendicular
    exact Vector.angleOrZero_right first second A_proper B_proper perpendicular

theorem Figure.angleExact_of_plane (A_flat : A.isFlat = true) (B_round : B.isFlat = false) :
    A.AngleExact B (u.angleToPlane v) where
  straight parallel := by
    rw [Parallel, if_neg (by simp [A_flat, B_round])] at parallel
    rw [Vector.angleToPlane_flat first second A_proper B_proper parallel]
    simp [straightAngle, A_flat]
  right perpendicular := by
    rw [Perpendicular, if_neg (by simp [A_flat, B_round])] at perpendicular
    exact Vector.angleToPlane_steep first second A_proper B_proper perpendicular

theorem Figure.angleExact_of_planes (A_flat : A.isFlat = true) (B_flat : B.isFlat = true) :
    A.AngleExact B (u.angleOfNormals v) where
  straight parallel := by
    rw [Parallel, if_pos (A_flat.trans B_flat.symm)] at parallel
    rw [Vector.angleOfNormals_straight first second A_proper B_proper parallel]
    simp [straightAngle, A_flat]
  right perpendicular := by
    rw [Perpendicular, if_pos (A_flat.trans B_flat.symm)] at perpendicular
    exact Vector.angleOfNormals_right first second A_proper B_proper perpendicular

end

section

variable {f g : Element} {A B : Figure}

/-- Two elements in the order of their kinds have an angle, and an exact one if they are parallel or
perpendicular. -/
theorem Element.exists_angle (first : f.Depicts A) (second : g.Depicts B) (f_bare : f.kind ≠ .span)
    (g_bare : g.kind ≠ .span) (order : f.kind.rank ≤ g.kind.rank) (A_proper : A.heading ≠ 0)
    (B_proper : B.heading ≠ 0) : ∃ m, f.angle? g = some m ∧ A.AngleExact B m := by
  cases first with
  | vector u =>
    cases second with
    | vector v =>
      exact ⟨_, rfl, Figure.angleExact_of_directions u v A_proper B_proper rfl rfl⟩
    | line k nonzero => simp [kind, Kind.rank] at order
    | plane Q nonzero => simp [kind, Kind.rank] at order
    | span S independent => exact absurd rfl g_bare
  | line l nonzero =>
    cases second with
    | vector v =>
      exact ⟨_, rfl, Figure.angleExact_of_directions l.direction v A_proper B_proper rfl rfl⟩
    | line k nonzero =>
      exact ⟨_, rfl,
        Figure.angleExact_of_directions l.direction k.direction A_proper B_proper rfl rfl⟩
    | plane Q nonzero =>
      exact ⟨_, rfl,
        (Figure.angleExact_of_plane Q.normal l.direction B_proper A_proper rfl rfl).symm⟩
    | span S independent => exact absurd rfl g_bare
  | plane P nonzero =>
    cases second with
    | vector v => exact ⟨_, rfl, Figure.angleExact_of_plane P.normal v A_proper B_proper rfl rfl⟩
    | line k nonzero => simp [kind, Kind.rank] at order
    | plane Q nonzero =>
      exact ⟨_, rfl, Figure.angleExact_of_planes P.normal Q.normal A_proper B_proper rfl rfl⟩
    | span S independent => exact absurd rfl g_bare
  | span S independent => exact absurd rfl f_bare

/-- What has the direction that it needs is not reported. -/
theorem Element.Depicts.degeneracy?_eq (depicts : f.Depicts A) : f.degeneracy? = none := by
  cases depicts with
  | vector value => rfl
  | line denotes nonzero => simp [degeneracy?, Vector.isZero_of_exact denotes.direction, nonzero]
  | plane denotes nonzero => simp [degeneracy?, Vector.isZero_of_exact denotes.normal, nonzero]
  | span denotes independent => rfl

end

section

variable {o : Operation} {a b f g : Element} {A B : Figure} {m : Computation Value} {value : Value}

theorem runMethod_quiet (first : f.Depicts A) (second : g.Depicts B)
    (supported : o.method? f g = some m) (quiet : m.Quiet value) :
    (runMethod o.label f g).Quiet value := by
  obtain ⟨result, warnings⟩ := runMethod_of_method supported
  refine ⟨result.trans quiet.result, ?_⟩
  rw [warnings, first.degeneracy?_eq, second.degeneracy?_eq, quiet.warnings]
  rfl

/-- The exact angles of parallel and of perpendicular elements in any order, and what is made of the
angle. -/
theorem Operation.answers_of_angle (first : a.Depicts A) (second : b.Depicts B)
    (A_proper : A.heading ≠ 0) (B_proper : B.heading ≠ 0) (answer : Float → Value)
    (supported : ∀ f g : Element, o.method? f g =
      (f.angle? g).map fun (m : Checked Float) => do return answer (← m)) :
    (A.Parallel B → o.Answers a b (answer (A.straightAngle B))) ∧
      (A.Perpendicular B → o.Answers a b (answer 90.0)) := by
  obtain ⟨f, f_equation, f_depicts, f_bare⟩ := first.toEquation
  obtain ⟨g, g_equation, g_depicts, g_bare⟩ := second.toEquation
  have alike := operate_alike o.label f_equation g_equation
  have answers {c d : Element} {C D : Figure} {x : Float} (c_depicts : c.Depicts C)
      (d_depicts : d.Depicts D) (found : c.angle? d = some (.ok x)) :
      (runMethod o.label c d).Quiet (answer x) := by
    refine runMethod_quiet c_depicts d_depicts ?_ (Noted.Quiet.pure _)
    rw [supported, found]
    rfl
  by_cases swapped : g.kind.rank < f.kind.rank
  · have order : Operands.inOrder f g = ⟨g, f, true⟩ := if_pos swapped
    rw [order] at alike
    obtain ⟨m, found, exact⟩ :=
      Element.exists_angle g_depicts f_depicts g_bare f_bare swapped.le B_proper A_proper
    constructor
    · intro parallel
      rw [exact.symm.straight parallel] at found
      exact alike.quiet (answers g_depicts f_depicts found)
    · intro perpendicular
      rw [exact.symm.right perpendicular] at found
      exact alike.quiet (answers g_depicts f_depicts found)
  · have order : Operands.inOrder f g = ⟨f, g, false⟩ := if_neg swapped
    rw [order] at alike
    obtain ⟨m, found, exact⟩ := Element.exists_angle f_depicts g_depicts f_bare g_bare
      (not_lt.mp swapped) A_proper B_proper
    constructor
    · intro parallel
      rw [exact.straight parallel] at found
      exact alike.quiet (answers f_depicts g_depicts found)
    · intro perpendicular
      rw [exact.right perpendicular] at found
      exact alike.quiet (answers f_depicts g_depicts found)

end

/-- Exact elements that are parallel or perpendicular are found to be so, in any order and without a
warning. The angle of parallel ones is that of equal or of opposite directions, the angle of
perpendicular ones a right angle. -/
theorem directions_exact {a b : Element} {A B : Figure} (first : a.Depicts A) (second : b.Depicts B)
    (A_proper : A.heading ≠ 0) (B_proper : B.heading ≠ 0) :
    (A.Parallel B → Operation.parallel.Answers a b (.flag true) ∧
      Operation.angle.Answers a b (.number (.float (A.straightAngle B)))) ∧
    (A.Perpendicular B → Operation.perpendicular.Answers a b (.flag true) ∧
      Operation.angle.Answers a b (.number (.float 90.0))) := by
  obtain ⟨straight, right⟩ := Operation.answers_of_angle (o := .angle) first second A_proper
    B_proper (fun x => .number (.float x)) fun _ _ => rfl
  obtain ⟨parallel, _⟩ := Operation.answers_of_angle (o := .parallel) first second A_proper
    B_proper (fun x => .flag (isParallelAngle x)) fun _ _ => rfl
  obtain ⟨_, perpendicular⟩ := Operation.answers_of_angle (o := .perpendicular) first second
    A_proper B_proper (fun x => .flag (isRightAngle x)) fun _ _ => rfl
  rw [Figure.isParallelAngle_straightAngle] at parallel
  have rightAngle : isRightAngle 90.0 = true := by decide
  rw [rightAngle] at perpendicular
  exact ⟨fun given => ⟨parallel given, straight given⟩,
    fun given => ⟨perpendicular given, right given⟩⟩

/-- A plane by two directions of very different lengths, with a vector in it and one against its
normal. -/
theorem directions_exact_span :
    Operation.parallel.Answers (.vector ⟨.int (10 ^ 300), 1, 0⟩)
        (.span ⟨⟨0, 0, 1⟩, ⟨.int (10 ^ 400), 0, 0⟩, ⟨5, .ratio (1 / 3), 0⟩⟩) (.flag true) ∧
      Operation.perpendicular.Answers
        (.span ⟨⟨0, 0, 1⟩, ⟨.int (10 ^ 400), 0, 0⟩, ⟨5, .ratio (1 / 3), 0⟩⟩)
        (.vector ⟨0, 0, .int (-7)⟩) (.flag true) := by
  have plane : Span.Denotes ⟨⟨0, 0, 1⟩, ⟨.int (10 ^ 400), 0, 0⟩, ⟨5, .ratio (1 / 3), 0⟩⟩
      ⟨(0 : Int), (0 : Int), (1 : Int)⟩ ⟨(10 ^ 400 : Int), (0 : Int), (0 : Int)⟩
      ⟨(5 : Int), 1 / 3, (0 : Int)⟩ := ⟨rfl, rfl, rfl⟩
  have spans := Element.Depicts.span plane (by decide +kernel)
  have inner : (Element.vector ⟨.int (10 ^ 300), 1, 0⟩).Depicts
      (.point ⟨(10 ^ 300 : Int), (1 : Int), (0 : Int)⟩) := .vector rfl
  have outer : (Element.vector ⟨0, 0, .int (-7)⟩).Depicts
      (.point ⟨(0 : Int), (0 : Int), (-7 : Int)⟩) := .vector rfl
  constructor
  · exact ((directions_exact inner spans (by decide +kernel) (by decide +kernel)).1
      (by decide +kernel)).1
  · exact ((directions_exact spans outer (by decide +kernel) (by decide +kernel)).2
      (by decide +kernel)).1

end SolidGeometry
