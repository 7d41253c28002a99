import SolidGeometry.Proofs.Evaluation.Rendering
import SolidGeometry.Proofs.Geometry.Representations
import SolidGeometry.Proofs.Geometry.Touching
import SolidGeometry.Proofs.Number.Defined

/-! Parallel lines and parallel planes. They coincide or have no point in common, and their
intersection is the first of them or nothing. Which of the two it is goes by their distance, so it
is right where the measured distance tells it, and there is none where no distance is measured. -/
namespace SolidGeometry
open Number

theorem Noted.succeeds_bind {α β : Type} {m : Computation α} {f : α → Computation β} {p : Prop}
    (rest : ∀ a, m.result = .ok a → (Succeeds (f a).result ↔ p)) :
    Succeeds (m >>= f).result ↔ Succeeds m.result ∧ p := by
  cases done : m.result with
  | ok a =>
    rw [result_bind_of_ok f done, rest a done]
    exact (and_iff_right ⟨a, rfl⟩).symm
  | error e => simp [bind_error f done, Succeeds]

/-- There is a double nearest to an exact number. -/
def Roundable (q : Rat) : Prop := (nearest? q).isSome = true

/-- The digits of an exact number, and of its denominator, are within the limit. -/
def Spellable (q : Rat) : Prop :=
  q.num.natAbs < Nat.pow 10 digitLimit ∧ q.den < Nat.pow 10 digitLimit

section

variable {a : Scalar} {v : Vector} {p : Point} {q u : Rat} {y : Float}

theorem succeeds_writeInt {n : Int} :
    Succeeds (writeInt n) ↔ n.natAbs < Nat.pow 10 digitLimit := by
  unfold writeInt
  split
  · rename_i small
    exact iff_of_true ⟨_, rfl⟩ small
  · rename_i large
    exact iff_of_false nofun large

theorem one_lt_pow (n : Nat) (proper : n ≠ 0) : 1 < Nat.pow 10 n :=
  Nat.one_lt_pow proper (by decide)

theorem Scalar.succeeds_text (exact : a.rational? = some q) :
    Succeeds a.text ↔ Spellable q := by
  have limit : 1 < Nat.pow 10 digitLimit := one_lt_pow digitLimit (by decide)
  cases a with
  | int n =>
    cases exact
    rw [text, succeeds_writeInt, Spellable, Rat.num_intCast, Rat.den_intCast, and_iff_left limit]
  | ratio r =>
    cases exact
    rw [text, Spellable]
    split
    · rename_i whole
      rw [succeeds_writeInt, whole, and_iff_left limit]
    · have under : Succeeds (writeInt q.den) ↔ q.den < Nat.pow 10 digitLimit := succeeds_writeInt
      rw [SolidGeometry.succeeds_bind fun _ => SolidGeometry.succeeds_bind fun _ => succeeds_pure _,
        succeeds_writeInt, and_true, under]
  | float x => cases exact
  | undefined => cases exact

theorem Scalar.succeeds_toFloat (exact : a.rational? = some q) :
    Succeeds a.toFloat ↔ Roundable q := by
  simp only [Succeeds, toFloat_eq_ok exact, Roundable, Option.isSome_iff_exists]

theorem Vector.succeeds_length (exact : v.value? = some p) :
    Succeeds v.length ↔ Roundable (p.dot p) := by
  obtain ⟨d, squared, d_value⟩ := dot_exact exact exact
  rw [length, squared, ← Scalar.succeeds_toFloat d_value]
  change Succeeds d.sqrt ↔ _
  rw [Scalar.sqrt_eq (Scalar.notNegative_of_rational d_value (Point.dot_self_nonneg p)),
    succeeds_bind fun (x : Float) => iff_true_intro ⟨x.sqrt, rfl⟩, and_true]

theorem Vector.succeeds_area {w : Vector} {r : Point} (first : v.value? = some p)
    (second : w.value? = some r) :
    Succeeds (v.area w) ↔ Roundable ((p.cross r).dot (p.cross r)) := by
  obtain ⟨n, crossed, n_value⟩ := cross_exact first second
  rw [area, crossed]
  exact succeeds_length n_value

/-- The length of an exact vector has a value, zero exactly if the square of the vector vanishes. -/
theorem Vector.value_of_length (exact : v.value? = some p) (measured : v.length = .ok y) :
    ∃ u, Number.value? y = some u ∧ (u = 0 ↔ Vanishes (p.dot p)) := by
  obtain ⟨x, nearest, rfl⟩ := (length_eq_ok exact).mp measured
  obtain ⟨u, root, -, zero, -⟩ := exists_value_sqrt (Point.dot_self_nonneg p) nearest
  exact ⟨u, root, zero⟩

/-- A number that is divided by a double is rounded, or only written if the double is zero. -/
theorem Scalar.succeeds_divide (divisor : value? y = some u) :
    Succeeds (a.divide (.float y)).result ↔
      (u = 0 → Succeeds a.text) ∧ (u ≠ 0 → Succeeds a.toFloat) := by
  have proper := isZero_float divisor
  unfold divide
  by_cases zero : u = 0
  · rw [if_pos (by rw [proper, decide_eq_true zero])]
    have written (above : String) : Succeeds (do
        let under ← (Scalar.float y).text
        Noted.warn .division s!"Division by zero ({above} / {under}) gives NaN"
        return Scalar.undefined : Computation Scalar).result ↔ True :=
      iff_true_intro ⟨.undefined, rfl⟩
    rw [Noted.succeeds_bind fun above _ => written above, and_true]
    simp [zero]
  · rw [if_neg (by simp [proper, zero])]
    have nonzero := not_beq_zero_of_value? divisor zero
    have quotient : Succeeds (a.floatQuotient (.float y)) ↔ Succeeds a.toFloat := by
      rw [floatQuotient, SolidGeometry.succeeds_bind fun x => iff_true_intro ⟨x / y, ?_⟩, and_true]
      simp [toFloat, nonzero, bind, Except.bind, pure, Except.pure]
    have rounded : Succeeds (do return .float (← a.floatQuotient (.float y)) :
        Computation Scalar).result ↔ Succeeds a.toFloat := by
      rw [Noted.succeeds_bind fun x _ => iff_true_intro ⟨.float x, rfl⟩, and_true]
      exact quotient
    simp only [zero, false_implies, true_and, ne_eq, not_false_eq_true, true_implies]
    cases a <;> exact rounded

end

namespace Figure

variable {b c r s m n p : Point} {d e : Rat}

/-- What is across one of two parallel directions is across the other. -/
theorem cross_of_parallel (r_nonzero : r ≠ 0) (s_nonzero : s ≠ 0) (parallel : r.cross s = 0) :
    r.cross p = 0 ↔ s.cross p = 0 := by
  constructor
  · intro along
    obtain ⟨k, rfl⟩ := (Point.exists_scale_iff r_nonzero).mpr parallel
    rw [Point.scale_cross, along, Point.zero_scale]
  · intro along
    obtain ⟨k, rfl⟩ := (Point.exists_scale_iff s_nonzero).mpr (Point.cross_eq_zero_comm.mp parallel)
    rw [Point.scale_cross, along, Point.zero_scale]

/-- A line may be written from any of its points. -/
theorem line_contains_from (nonzero : r ≠ 0) {q : Point} (contained : (line b r).Contains p) :
    (line b r).Contains q ↔ r.cross (q - p) = 0 := by
  have across : r.cross (p - b) = 0 := (line_contains_iff nonzero).mp contained
  have moved : q - b = q - p + (p - b) := by
    ext <;> simp only [Point.add_x, Point.add_y, Point.add_z, Point.sub_x, Point.sub_y,
      Point.sub_z] <;> ring
  rw [line_contains_iff nonzero, moved, Point.cross_add, across, Point.add_zero]

/-- Parallel lines coincide if they touch. -/
theorem lines_coincide_iff (r_nonzero : r ≠ 0) (s_nonzero : s ≠ 0) (parallel : r.cross s = 0) :
    (∀ p, (line b r).Contains p ↔ (line c s).Contains p) ↔ (line b r).Touches (line c s) := by
  constructor
  · intro same
    have start : (line b r).Contains b := (line_contains_iff r_nonzero).mpr (by
      rw [Point.sub_self]
      ext <;> simp [Point.cross])
    exact ⟨b, start, (same b).mp start⟩
  · rintro ⟨p, here, there⟩ q
    rw [line_contains_from r_nonzero here, line_contains_from s_nonzero there,
      cross_of_parallel r_nonzero s_nonzero parallel]

/-- Parallel planes coincide if they touch. -/
theorem planes_coincide_iff (m_nonzero : m ≠ 0) (n_nonzero : n ≠ 0) (parallel : m.cross n = 0) :
    (∀ p, (plane m d).Contains p ↔ (plane n e).Contains p) ↔
      (plane m d).Touches (plane n e) := by
  constructor
  · intro same
    have start : (plane m d).Contains (m.onAxis d) := Point.dot_onAxis m_nonzero d
    exact ⟨_, start, (same _).mp start⟩
  · rintro ⟨p, here, there⟩ q
    obtain ⟨k, rfl⟩ := (Point.exists_scale_iff m_nonzero).mpr parallel
    have here : m.dot p + d = 0 := here
    have there : (m.scale k).dot p + e = 0 := there
    have proper : k ≠ 0 := by
      rintro rfl
      exact n_nonzero (Point.scale_zero m)
    change m.dot q + d = 0 ↔ (m.scale k).dot q + e = 0
    have scaled : (m.scale k).dot q + e = k * (m.dot q + d) := by
      rw [Point.scale_dot] at there ⊢
      linear_combination there - k * here
    rw [scaled, mul_eq_zero, or_iff_right proper]

/-- The distance of two parallel lines or planes can be measured: what is rounded on the way is
within the range of doubles, and a height that is divided by zero is within the limit on digits. -/
def Measurable : Figure → Figure → Prop
  | line b r, line c _ =>
    Roundable ((r.cross (c - b)).dot (r.cross (c - b))) ∧ Roundable (r.dot r)
  | plane m c, plane n d =>
    Roundable (n.dot n) ∧ (Vanishes (n.dot n) → Spellable |n.dot (m.onAxis c) + d|) ∧
      (¬Vanishes (n.dot n) → Roundable |n.dot (m.onAxis c) + d|)
  | _, _ => True

end Figure

section

variable {b c r s m n p : Point} {d e : Rat} {l k : Line} {P Q : Plane} {v : Vector}

theorem Line.succeeds_distanceToPoint (denotes : l.Denotes b r) (point : v.value? = some p) :
    Succeeds (l.distanceToPoint v).result ↔
      Roundable ((r.cross (p - b)).dot (r.cross (p - b))) ∧ Roundable (r.dot r) := by
  obtain ⟨w, moved, w_value⟩ := Vector.between_exact denotes.base point
  rw [distanceToPoint, moved, ← Vector.succeeds_area denotes.direction w_value,
    ← Vector.succeeds_length denotes.direction]
  simp only [Noted.lift_ok, Noted.done_bind]
  have divides (x y : Float) (measured : l.direction.length = .ok y) :
      Succeeds ((Scalar.float x).divide (.float y)).result ↔ True := by
    obtain ⟨u, valued, -⟩ := Vector.value_of_length denotes.direction measured
    exact iff_true_intro
      ((Scalar.succeeds_divide valued).mpr ⟨fun _ => ⟨_, rfl⟩, fun _ => ⟨_, rfl⟩⟩)
  refine Noted.succeeds_bind fun x _ => ?_
  rw [Noted.succeeds_bind fun y measured => divides x y measured, and_true]
  rfl

/-- Parallel lines always have a cross product, so their distance goes by a point of the second. -/
theorem Line.distance_of_parallel (first : l.Denotes b r) (second : k.Denotes c s)
    (parallel : r.cross s = 0) : l.distance k = l.distanceToPoint k.base := by
  obtain ⟨n, crossed, n_value⟩ := Vector.cross_exact first.direction second.direction
  have zero := Vector.isZero_of_exact n_value
  rw [distance, crossed]
  simp only [Noted.lift_ok, Noted.done_bind, zero, parallel, decide_true, if_true]

theorem Plane.succeeds_distanceToPoint (denotes : P.Denotes n d) (point : v.value? = some p) :
    Succeeds (P.distanceToPoint v).result ↔
      Roundable (n.dot n) ∧ (Vanishes (n.dot n) → Spellable |n.dot p + d|) ∧
        (¬Vanishes (n.dot n) → Roundable |n.dot p + d|) := by
  obtain ⟨x, product, x_value⟩ := Vector.dot_exact denotes.normal point
  obtain ⟨h, added, h_value⟩ := Scalar.add_exact x_value denotes.offset
  have size := Scalar.abs_exact h_value
  rw [distanceToPoint, product, ← Vector.succeeds_length denotes.normal]
  simp only [Noted.lift_ok, Noted.done_bind, added]
  refine Noted.succeeds_bind fun y measured => ?_
  obtain ⟨u, valued, zero⟩ := Vector.value_of_length denotes.normal measured
  rw [Scalar.succeeds_divide valued, Scalar.succeeds_text size, Scalar.succeeds_toFloat size, zero,
    ne_eq, zero]

/-- The angle of parallel planes is exact, so their distance goes by a point of the first. -/
theorem Plane.distance_of_parallel (first : P.Denotes m d) (second : Q.Denotes n e)
    (m_nonzero : m ≠ 0) (n_nonzero : n ≠ 0) (parallel : m.cross n = 0) :
    ∃ w, w.value? = some (m.onAxis d) ∧ P.distance Q = Q.distanceToPoint w := by
  obtain ⟨w, picked, w_value⟩ := axisPoint_exact first m_nonzero
  obtain ⟨angle, found, taken⟩ := takenForAligned_of_cross m_nonzero n_nonzero parallel
  rw [← Vector.angleOfNormals_congr first.normal second.normal] at found
  refine ⟨w, w_value, ?_⟩
  rw [distance, found]
  simp only [Noted.lift_ok, Noted.done_bind, taken, if_true, picked]

theorem Line.intersection_of_parallel (first : l.Denotes b r) (second : k.Denotes c s)
    (parallel : r.cross s = 0) :
    l.intersection k = do
      return if (← l.distance k).isZero then some (.line l) else none := by
  obtain ⟨gap, moved, -⟩ := Vector.between_exact first.base second.base
  obtain ⟨n, crossed, n_value⟩ := Vector.cross_exact first.direction second.direction
  have zero := Vector.isZero_of_exact n_value
  rw [intersection, moved, crossed]
  simp only [Noted.lift_ok, Noted.done_bind, zero, parallel, decide_true, if_true]

theorem Plane.intersection_of_parallel (first : P.Denotes m d) (second : Q.Denotes n e)
    (parallel : m.cross n = 0) :
    P.intersection Q = do
      return if (← P.distance Q).isZero then some (.plane P) else none := by
  obtain ⟨x, crossed, x_value⟩ := Vector.cross_exact first.normal second.normal
  have zero := Vector.isZero_of_exact x_value
  rw [intersection, crossed]
  simp only [Noted.lift_ok, Noted.done_bind, zero, parallel, decide_true, if_true]

end

section

variable {a b f g : Element} {A B : Figure}

/-- The intersection of parallel elements goes by their distance. -/
theorem Element.intersection?_of_parallel (first : f.Equates A) (second : g.Equates B)
    (parallel : A.ParallelTo B) :
    ∃ m, f.distance? g = some m ∧ (Succeeds m.result ↔ A.Measurable B) ∧
      f.intersection? g = some (do return if (← m).isZero then some f else none) := by
  rcases parallel.cases with ⟨b, r, c, s, rfl, rfl, across⟩ | ⟨m, c, n, d, rfl, rfl, across⟩
  · obtain ⟨l, rfl, l_denotes, -⟩ := first.exists_line
    obtain ⟨k, rfl, k_denotes, -⟩ := second.exists_line
    refine ⟨_, rfl, ?_, congrArg some (Line.intersection_of_parallel l_denotes k_denotes across)⟩
    rw [Line.distance_of_parallel l_denotes k_denotes across]
    exact Line.succeeds_distanceToPoint l_denotes k_denotes.base
  · obtain ⟨P, rfl, P_denotes, P_nonzero⟩ := first.exists_plane
    obtain ⟨Q, rfl, Q_denotes, Q_nonzero⟩ := second.exists_plane
    refine ⟨_, rfl, ?_, congrArg some (Plane.intersection_of_parallel P_denotes Q_denotes across)⟩
    obtain ⟨w, w_value, same⟩ :=
      Plane.distance_of_parallel P_denotes Q_denotes P_nonzero Q_nonzero across
    rw [same]
    exact Plane.succeeds_distanceToPoint Q_denotes w_value

theorem Operation.intersection_of_parallel {m : Computation Scalar}
    (meets : f.intersection? g = some (do return if (← m).isZero then some f else none)) :
    intersection.method? f g =
      some (do return if (← m).isZero then .element f else .none) := by
  rw [method?, meets]
  simp only [Option.map_some, Option.some.injEq, bind_assoc, pure_bind]
  refine congrArg (m >>= ·) (funext fun x => ?_)
  cases x.isZero <;> rfl

theorem Element.coincide_iff (first : f.Equates A) (second : g.Equates B)
    (parallel : A.ParallelTo B) : (∀ p, A.Contains p ↔ B.Contains p) ↔ A.Touches B := by
  rcases parallel.cases with ⟨b, r, c, s, rfl, rfl, across⟩ | ⟨m, c, n, d, rfl, rfl, across⟩
  · obtain ⟨_, -, -, r_nonzero⟩ := first.exists_line
    obtain ⟨_, -, -, s_nonzero⟩ := second.exists_line
    exact Figure.lines_coincide_iff r_nonzero s_nonzero across
  · obtain ⟨_, -, -, m_nonzero⟩ := first.exists_plane
    obtain ⟨_, -, -, n_nonzero⟩ := second.exists_plane
    exact Figure.planes_coincide_iff m_nonzero n_nonzero across

end

/-- The intersection of two exact lines of parallel directions or of two exact planes of parallel
normals. There is one exactly if their distance can be measured. It is the first of the two or
nothing, and it is right, the first if they coincide and nothing if they are disjoint, exactly if
the measured distance tells whether they touch. -/
theorem intersection_of_parallels {a b : Element} {A B : Figure} (first : a.Depicts A)
    (second : b.Depicts B) (parallel : A.ParallelTo B) :
    ∃ e, a.toEquation = .ok e ∧
      ((∃ value, (operate "intersection" a b).result = .ok value) ↔ A.Measurable B) ∧
      ∀ value, (operate "intersection" a b).result = .ok value →
        (value = .element e ∨ value = .none) ∧
        ((value = .element e ↔ ∀ p, a.Contains p ↔ b.Contains p) ↔ A.Discerned B) ∧
        ((value = .none ↔ ¬∃ p, a.Contains p ∧ b.Contains p) ↔ A.Discerned B) := by
  obtain ⟨f, f_equation, f_equates⟩ := first.equates
  obtain ⟨g, g_equation, g_equates⟩ := second.equates
  obtain ⟨m, distance, succeeds, meets⟩ :=
    Element.intersection?_of_parallel f_equates g_equates parallel
  have coincide := Element.coincide_iff f_equates g_equates parallel
  have kinds : f.kind = g.kind := by
    rw [f_equates.kind_eq, g_equates.kind_eq, parallel.kind_eq]
  obtain ⟨here, there⟩ := Operands.inOrder_same kinds
  have method : Operation.intersection.method? (Operands.inOrder f g).first
      (Operands.inOrder f g).second =
        some (do return if (← m).isZero then .element f else .none) := by
    rw [here, there]
    exact Operation.intersection_of_parallel meets
  have run : (operate "intersection" a b).result = _ :=
    (operate_of_method f_equation g_equation method).1
  rw [run, ← succeeds]
  refine ⟨f, f_equation, ?_, ?_⟩
  · have answered : Succeeds (do return if (← m).isZero then .element f else .none :
        Computation Value).result ↔ Succeeds m.result ∧ True :=
      Noted.succeeds_bind fun x _ => iff_true_intro ⟨_, rfl⟩
    rwa [and_true] at answered
  · intro value returns
    obtain ⟨x, measured, result⟩ := Noted.result_bind.mp returns
    cases result
    have discerned := Element.discerned f_equates.depicts g_equates.depicts distance measured
    have apart : (¬∃ p, A.Contains p ∧ B.Contains p) ↔ ¬A.Touches B := Iff.rfl
    simp only [first.contains_iff, second.contains_iff, coincide, apart, ← discerned]
    cases x.isZero with
    | true => simp
    | false => simp

/-- Two parallel lines so near to each other that they are taken for one. -/
theorem intersection_of_parallels_near :
    (¬∃ p, (Element.line ⟨⟨0, 0, 0⟩, ⟨1, 0, 0⟩⟩).Contains p ∧
        (Element.line ⟨⟨0, 0, .ratio (1 / 10 ^ 200)⟩, ⟨1, 0, 0⟩⟩).Contains p) ∧
      (operate "intersection" (.line ⟨⟨0, 0, 0⟩, ⟨1, 0, 0⟩⟩)
        (.line ⟨⟨0, 0, .ratio (1 / 10 ^ 200)⟩, ⟨1, 0, 0⟩⟩)).result =
          .ok (.element (.line ⟨⟨0, 0, 0⟩, ⟨1, 0, 0⟩⟩)) := by
  let l : Element := .line ⟨⟨0, 0, 0⟩, ⟨1, 0, 0⟩⟩
  let k : Element := .line ⟨⟨0, 0, .ratio (1 / 10 ^ 200)⟩, ⟨1, 0, 0⟩⟩
  have nonzero : (⟨1, 0, 0⟩ : Point) ≠ 0 := by decide +kernel
  have parallel : Point.cross ⟨1, 0, 0⟩ ⟨1, 0, 0⟩ = 0 := Point.cross_self _
  have first : l.Depicts (.line 0 ⟨1, 0, 0⟩) := .line ⟨rfl, rfl⟩ nonzero
  have second : k.Depicts (.line ⟨0, 0, 1 / 10 ^ 200⟩ ⟨1, 0, 0⟩) := .line ⟨rfl, rfl⟩ nonzero
  have across : Point.cross ⟨1, 0, 0⟩ (⟨0, 0, 1 / 10 ^ 200⟩ - 0) ≠ 0 := by decide +kernel
  have apart : ¬∃ p, l.Contains p ∧ k.Contains p := by
    change ¬l.Touches k
    rw [Element.touches_iff first second, Figure.line_touches_parallel nonzero parallel]
    exact across
  have hidden : ¬(Figure.line 0 ⟨1, 0, 0⟩).Discerned (.line ⟨0, 0, 1 / 10 ^ 200⟩ ⟨1, 0, 0⟩) := by
    rw [Figure.Discerned, if_pos parallel, LineDiscerns, if_neg across, not_not]
    unfold Vanishes
    decide +kernel
  have returned : (operate "intersection" l k).result.isOk = true := by decide +kernel
  refine ⟨apart, ?_⟩
  obtain ⟨e, equation, -, decided⟩ := intersection_of_parallels first second parallel
  cases equation
  cases returns : (operate "intersection" l k).result with
  | error fault =>
    rw [returns] at returned
    cases returned
  | ok value =>
    obtain ⟨rfl | rfl, -, right⟩ := decided value returns
    · rfl
    · exact absurd (right.mp (iff_of_true rfl apart)) hidden

end SolidGeometry
