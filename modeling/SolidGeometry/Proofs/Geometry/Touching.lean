import SolidGeometry.Proofs.Geometry.Contact
import SolidGeometry.Proofs.Geometry.Meeting
import SolidGeometry.Proofs.Geometry.Reports

namespace SolidGeometry

section

variable {b c r s m n : Point} {d e : Rat} {l k : Line} {P Q : Plane} {x : Scalar}

/-- Lines of different directions have an intersection exactly if they touch. -/
theorem Line.intersection_independent (first : l.Denotes b r) (second : k.Denotes c s)
    (independent : r.cross s ≠ 0) :
    ∃ o, (l.intersection k).result = .ok o ∧
      (o.isSome = true ↔ (Figure.line b r).Touches (.line c s)) := by
  obtain ⟨o, met, shows⟩ := intersection_exact first second independent
  refine ⟨o, by rw [met], ?_⟩
  rw [Element.Shows.isSome_iff shows, Figure.crossing_isSome, Figure.line_touches_line independent,
    Point.dot_comm]

/-- Parallel lines have an intersection exactly if their distance is measured as zero. -/
theorem Line.intersection_parallel (first : l.Denotes b r) (second : k.Denotes c s)
    (parallel : r.cross s = 0) (measured : (l.distance k).result = .ok x) :
    ∃ o, (l.intersection k).result = .ok o ∧ o.isSome = x.isZero := by
  obtain ⟨gap, moved, gap_value⟩ := Vector.between_exact first.base second.base
  obtain ⟨normal, crossed, normal_value⟩ := Vector.cross_exact first.direction second.direction
  have zero := Vector.isZero_of_exact normal_value
  rw [intersection, moved, crossed]
  simp only [Noted.lift_ok, Noted.done_bind, zero, parallel, decide_true, if_true]
  rw [Noted.result_bind_of_ok _ measured]
  cases x.isZero with
  | false => exact ⟨none, rfl, rfl⟩
  | true => exact ⟨some (.line l), rfl, rfl⟩

/-- A line and a plane have an intersection exactly if they touch. -/
theorem Plane.intersectionWithLine_isSome (first : l.Denotes b r) (second : P.Denotes n d) :
    ∃ o, (P.intersectionWithLine l).result = .ok o ∧
      (o.isSome = true ↔ (Figure.line b r).Touches (.plane n d)) := by
  obtain ⟨o, met, shows⟩ := intersectionWithLine_exact first second
  refine ⟨o, by rw [met], ?_⟩
  rw [Element.Shows.isSome_iff shows, Figure.piercing_isSome, Figure.line_touches_plane]

theorem Plane.intersection_independent (first : P.Denotes m d) (second : Q.Denotes n e)
    (independent : m.cross n ≠ 0) :
    ∃ k, (P.intersection Q).result = .ok (some (.line k)) := by
  obtain ⟨k, met, -⟩ := intersection_exact first second independent
  exact ⟨k, by rw [met]⟩

/-- Parallel planes have an intersection exactly if their distance is measured as zero. -/
theorem Plane.intersection_parallel (first : P.Denotes m d) (second : Q.Denotes n e)
    (parallel : m.cross n = 0) (measured : (P.distance Q).result = .ok x) :
    ∃ o, (P.intersection Q).result = .ok o ∧ o.isSome = x.isZero := by
  obtain ⟨v, crossed, v_value⟩ := Vector.cross_exact first.normal second.normal
  rw [intersection, crossed]
  have flat : v.isZero = true := by
    rw [Vector.isZero_of_exact v_value, decide_eq_true parallel]
  simp only [flat, Noted.lift_ok, Noted.done_bind, if_true]
  rw [Noted.result_bind_of_ok _ measured]
  cases x.isZero with
  | false => exact ⟨none, rfl, rfl⟩
  | true => exact ⟨some (.plane P), rfl, rfl⟩

end

namespace Figure

/-- The kind of the elements that stand for a figure by its equation. -/
def kind : Figure → Kind
  | point _ => .vector
  | line _ _ => .line
  | plane _ _ => .plane

/-- Two lines or two planes of parallel directions or normals. -/
def ParallelTo : Figure → Figure → Prop
  | line _ r, line _ s => r.cross s = 0
  | plane m _, plane n _ => m.cross n = 0
  | _, _ => False

theorem discerned_comm {A B : Figure} (differ : A.kind ≠ B.kind) :
    A.Discerned B ↔ B.Discerned A := by
  cases A <;> cases B <;> first | rfl | exact absurd rfl differ

theorem parallelTo_comm {A B : Figure} (differ : A.kind ≠ B.kind) :
    A.ParallelTo B ↔ B.ParallelTo A := by
  cases A <;> cases B <;> first | rfl | exact absurd rfl differ

/-- Two figures are parallel as two lines or as two planes. -/
theorem ParallelTo.cases {A B : Figure} (parallel : A.ParallelTo B) :
    (∃ b r c s, A = line b r ∧ B = line c s ∧ r.cross s = 0) ∨
      ∃ m c n d, A = plane m c ∧ B = plane n d ∧ m.cross n = 0 := by
  cases A with
  | point p => exact parallel.elim
  | line b r =>
    cases B with
    | line c s => exact .inl ⟨b, r, c, s, rfl, rfl, parallel⟩
    | _ => exact parallel.elim
  | plane m c =>
    cases B with
    | plane n d => exact .inr ⟨m, c, n, d, rfl, rfl, parallel⟩
    | _ => exact parallel.elim

theorem ParallelTo.kind_eq {A B : Figure} (parallel : A.ParallelTo B) : A.kind = B.kind := by
  rcases parallel.cases with ⟨b, r, c, s, rfl, rfl, -⟩ | ⟨m, c, n, d, rfl, rfl, -⟩
  · rfl
  · rfl

end Figure

section

variable {a b f g : Element} {A B : Figure} {x : Scalar} {m : Computation Scalar}

theorem Element.Depicts.kind_eq (depicts : f.Depicts A) (bare : f.kind ≠ .span) :
    f.kind = A.kind := by
  cases depicts with
  | vector value => rfl
  | line denotes nonzero => rfl
  | plane denotes nonzero => rfl
  | span denotes independent => exact absurd rfl bare

/-- An element that stands for a figure by its equation. -/
structure Element.Equates (e : Element) (F : Figure) : Prop where
  depicts : e.Depicts F
  bare : e.kind ≠ .span

theorem Element.Depicts.equates {e : Element} {F : Figure} (depicts : e.Depicts F) :
    ∃ f, e.toEquation = .ok f ∧ f.Equates F := by
  obtain ⟨f, equation, shown, bare⟩ := depicts.toEquation
  exact ⟨f, equation, shown, bare⟩

namespace Element.Equates

variable {b r n p : Point} {d : Rat}

theorem kind_eq (equates : f.Equates A) : f.kind = A.kind := equates.depicts.kind_eq equates.bare

theorem exists_vector (equates : f.Equates (.point p)) :
    ∃ v, f = .vector v ∧ v.value? = some p := by
  cases equates.depicts with
  | vector value => exact ⟨_, rfl, value⟩

theorem exists_line (equates : f.Equates (.line b r)) :
    ∃ l, f = .line l ∧ l.Denotes b r ∧ r ≠ 0 := by
  cases equates.depicts with
  | line denotes nonzero => exact ⟨_, rfl, denotes, nonzero⟩

theorem exists_plane (equates : f.Equates (.plane n d)) :
    ∃ P, f = .plane P ∧ P.Denotes n d ∧ n ≠ 0 := by
  cases equates.depicts with
  | plane denotes nonzero => exact ⟨_, rfl, denotes, nonzero⟩
  | span denotes independent => exact absurd rfl equates.bare

end Element.Equates

/-- The measured distance of elements in the order of their kinds tells whether they touch under the
condition on their figures. -/
theorem Element.discerned (first : f.Depicts A) (second : g.Depicts B)
    (method : f.distance? g = some m) (measured : m.result = .ok x) :
    (x.isZero = true ↔ A.Touches B) ↔ A.Discerned B := by
  cases first with
  | vector u =>
    cases second with
    | vector v =>
      cases method
      simp only [Noted.result_bind, Noted.result_lift] at measured
      obtain ⟨y, found, result⟩ := measured
      cases result
      exact Vector.discerned_point u v found
    | line denotes nonzero => cases method
    | plane denotes nonzero => cases method
    | span denotes independent => cases method
  | line l l_nonzero =>
    cases second with
    | vector v =>
      cases method
      exact Line.discerned_point l l_nonzero v measured
    | line k k_nonzero =>
      cases method
      exact Line.discerned_line l k l_nonzero measured
    | plane P P_nonzero =>
      cases method
      exact Plane.discerned_line P l P_nonzero l_nonzero measured
    | span denotes independent => cases method
  | plane P P_nonzero =>
    cases second with
    | vector v =>
      cases method
      exact Plane.discerned_point P v measured
    | line denotes nonzero => cases method
    | plane Q Q_nonzero =>
      cases method
      exact Plane.discerned_plane P Q P_nonzero Q_nonzero measured
    | span denotes independent => cases method
  | span denotes independent => cases method

/-- Elements other than points that have a distance have an intersection. It tells whether they
touch, or what their distance tells if they are parallel. -/
theorem Element.intersection_discerned (first : f.Depicts A) (second : g.Depicts B)
    (first_wide : A.kind ≠ .vector) (second_wide : B.kind ≠ .vector)
    (method : f.distance? g = some m) (measured : m.result = .ok x) :
    ∃ k o, f.intersection? g = some k ∧ k.result = .ok o ∧
      ((x.isZero = true ↔ o.isSome = true) ↔ A.Discerned B ∨ A.ParallelTo B) := by
  have discerned := discerned first second method measured
  have parallel_or_not := Classical.em (A.ParallelTo B)
  cases first with
  | vector u => exact absurd rfl first_wide
  | line l l_nonzero =>
    cases second with
    | vector v => exact absurd rfl second_wide
    | line k k_nonzero =>
      cases method
      rcases parallel_or_not with parallel | apart
      · obtain ⟨o, found, same⟩ := Line.intersection_parallel l k parallel measured
        exact ⟨_, o, rfl, found, iff_of_true (by rw [same]) (.inr parallel)⟩
      · obtain ⟨o, found, touches⟩ := Line.intersection_independent l k apart
        refine ⟨_, o, rfl, found, ?_⟩
        rw [touches, or_iff_left apart]
        exact discerned
    | plane P P_nonzero =>
      cases method
      obtain ⟨o, found, touches⟩ := Plane.intersectionWithLine_isSome l P
      refine ⟨_, o, rfl, found, ?_⟩
      rw [touches, discerned]
      exact (or_iff_left id).symm
    | span denotes independent => cases method
  | plane P P_nonzero =>
    cases second with
    | vector v => exact absurd rfl second_wide
    | line denotes nonzero => cases method
    | plane Q Q_nonzero =>
      cases method
      rcases parallel_or_not with parallel | apart
      · obtain ⟨o, found, same⟩ := Plane.intersection_parallel P Q parallel measured
        exact ⟨_, o, rfl, found, iff_of_true (by rw [same]) (.inr parallel)⟩
      · obtain ⟨k, found⟩ := Plane.intersection_independent P Q apart
        refine ⟨_, _, rfl, found, ?_⟩
        rw [or_iff_left apart, ← discerned]
        exact iff_congr Iff.rfl (iff_of_true rfl (Figure.plane_touches_plane apart))
    | span denotes independent => cases method
  | span denotes independent => cases method

/-- What a verdict on two elements in the order of their kinds tells of their figures. -/
theorem Element.on_in_order {method : Computation Value} {value : Value} (first : f.Depicts A)
    (second : g.Depicts B) (supported : Operation.on.method? f g = some method)
    (returns : method.result = .ok value) :
    ∃ flag, value = .flag flag ∧ ((flag = true ↔ A.Touches B) ↔ A.Discerned B) ∧
      (A.kind ≠ .vector → B.kind ≠ .vector →
        ∃ meeting common, Operation.intersection.method? f g = some meeting ∧
          meeting.result = .ok common ∧
            ((flag = true ↔ common ≠ .none) ↔ A.Discerned B ∨ A.ParallelTo B)) := by
  obtain ⟨m, distance, rfl⟩ := Option.map_eq_some_iff.mp supported
  obtain ⟨x, measured, result⟩ := Noted.result_bind.mp returns
  cases result
  refine ⟨x.isZero, rfl, discerned first second distance measured, ?_⟩
  intro first_wide second_wide
  obtain ⟨k, o, meeting, found, told⟩ :=
    intersection_discerned first second first_wide second_wide distance measured
  refine ⟨_, o.elim .none .element, Option.map_eq_some_iff.mpr ⟨k, meeting, rfl⟩,
    Noted.result_bind.mpr ⟨o, found, rfl⟩, ?_⟩
  rw [← told]
  cases o with
  | none => simp
  | some e => simp

end

/-- Where the verdict on two exact elements is right: it tells whether they touch exactly if their
figures are discerned, and tells whether they have an intersection also if they are parallel. -/
theorem on_iff_discerned {a b : Element} {A B : Figure} {value : Value} (first : a.Depicts A)
    (second : b.Depicts B) (returns : (operate "on?" a b).result = .ok value) :
    ∃ flag, value = .flag flag ∧ ((flag = true ↔ a.Touches b) ↔ A.Discerned B) ∧
      (A.kind ≠ .vector → B.kind ≠ .vector →
        ∃ common, (operate "intersection" a b).result = .ok common ∧
          ((flag = true ↔ common ≠ .none) ↔ A.Discerned B ∨ A.ParallelTo B)) := by
  obtain ⟨f, f_equation, f_depicts, f_bare⟩ := first.toEquation
  obtain ⟨g, g_equation, g_depicts, g_bare⟩ := second.toEquation
  obtain ⟨method, supported, result⟩ :=
    (operate_eq_ok (o := .on) f_equation g_equation).mp returns
  rw [Element.touches_iff first second]
  by_cases swapped : g.kind.rank < f.kind.rank
  · have order : Operands.inOrder f g = ⟨g, f, true⟩ := if_pos swapped
    have differ : A.kind ≠ B.kind := by
      rw [← f_depicts.kind_eq f_bare, ← g_depicts.kind_eq g_bare]
      intro same
      rw [same] at swapped
      exact lt_irrefl _ swapped
    rw [order] at supported
    obtain ⟨flag, shown, touches, meets⟩ :=
      Element.on_in_order g_depicts f_depicts supported result
    refine ⟨flag, shown, ?_, ?_⟩
    · rw [Figure.touches_comm, Figure.discerned_comm differ]
      exact touches
    · intro first_wide second_wide
      obtain ⟨meeting, common, found, met, told⟩ := meets second_wide first_wide
      refine ⟨common, ?_, ?_⟩
      · refine (operate_eq_ok (o := .intersection) f_equation g_equation).mpr ⟨meeting, ?_, met⟩
        rw [order]
        exact found
      · rw [Figure.discerned_comm differ, Figure.parallelTo_comm differ]
        exact told
  · have order : Operands.inOrder f g = ⟨f, g, false⟩ := if_neg swapped
    rw [order] at supported
    obtain ⟨flag, shown, touches, meets⟩ :=
      Element.on_in_order f_depicts g_depicts supported result
    refine ⟨flag, shown, touches, ?_⟩
    intro first_wide second_wide
    obtain ⟨meeting, common, found, met, told⟩ := meets first_wide second_wide
    refine ⟨common, ?_, told⟩
    refine (operate_eq_ok (o := .intersection) f_equation g_equation).mpr ⟨meeting, ?_, met⟩
    rw [order]
    exact found

/-- Two points so near to each other that their distance is measured as zero. -/
theorem on_iff_discerned_near_points :
    ¬(Element.vector ⟨0, 0, 0⟩).Touches (.vector ⟨.ratio (1 / 10 ^ 200), 0, 0⟩) ∧
      (operate "on?" (.vector ⟨0, 0, 0⟩) (.vector ⟨.ratio (1 / 10 ^ 200), 0, 0⟩)).result =
        .ok (.flag true) := by
  have first : (Element.vector ⟨0, 0, 0⟩).Depicts (.point 0) := .vector rfl
  have second : (Element.vector ⟨.ratio (1 / 10 ^ 200), 0, 0⟩).Depicts
      (.point ⟨1 / 10 ^ 200, 0, 0⟩) := .vector rfl
  have differ : (0 : Point) ≠ ⟨1 / 10 ^ 200, 0, 0⟩ := by decide +kernel
  have apart : ¬(Element.vector ⟨0, 0, 0⟩).Touches (.vector ⟨.ratio (1 / 10 ^ 200), 0, 0⟩) := by
    rw [Element.touches_iff first second, Figure.point_touches]
    exact differ.symm
  have hidden : ¬(Figure.point 0).Discerned (.point ⟨1 / 10 ^ 200, 0, 0⟩) := by
    rintro (same | proper)
    · exact differ same
    · apply proper
      unfold Vanishes
      decide +kernel
  have returned : (operate "on?" (.vector ⟨0, 0, 0⟩)
      (.vector ⟨.ratio (1 / 10 ^ 200), 0, 0⟩)).result.isOk = true := by
    decide +kernel
  refine ⟨apart, ?_⟩
  cases returns : (operate "on?" (.vector ⟨0, 0, 0⟩)
      (.vector ⟨.ratio (1 / 10 ^ 200), 0, 0⟩)).result with
  | error fault =>
    rw [returns] at returned
    cases returned
  | ok value =>
    obtain ⟨flag, rfl, told, _⟩ := on_iff_discerned first second returns
    cases flag with
    | true => rfl
    | false => exact absurd (told.mp (iff_of_false Bool.false_ne_true apart)) hidden

end SolidGeometry
