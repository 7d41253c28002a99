import SolidGeometry.Proofs.Geometry.Concurrence
import SolidGeometry.Proofs.Geometry.Directions
import SolidGeometry.Proofs.Geometry.Touching

namespace SolidGeometry

namespace Figure

/-- The figure moved by a vector. -/
def translate (t : Point) : Figure → Figure
  | point p => point (p + t)
  | line base direction => line (base + t) direction
  | plane normal offset => plane normal (offset - normal.dot t)

/-- The points of a moved figure are the moved points. This checks the definition of `translate`, by
which two elements are said to be moved alike. -/
theorem translate_contains {A : Figure} {t p : Point} :
    (A.translate t).Contains (p + t) ↔ A.Contains p := by
  cases A with
  | point q =>
    simp only [translate, Contains, Point.ext_iff, Point.add_x, Point.add_y, Point.add_z,
      add_left_inj]
  | line base direction =>
    refine exists_congr fun s => ?_
    simp only [Point.ext_iff, Point.add_x, Point.add_y, Point.add_z, add_right_comm _ t.x,
      add_right_comm _ t.y, add_right_comm _ t.z, add_left_inj]
  | plane normal offset =>
    simp only [translate, Contains, Point.dot_add]
    constructor
    · intro contained
      linarith
    · intro contained
      linarith

/-- The quantities that a distance is measured by are the same for two pairs of figures in the order
of their kinds. -/
inductive SpacedAlike : Figure → Figure → Figure → Figure → Prop
  | points {p q p' q' : Point} (gap : q - p = q' - p') :
    SpacedAlike (point p) (point q) (point p') (point q')
  | line_point {b r p b' p' : Point} (moment : r.cross (p - b) = r.cross (p' - b')) :
    SpacedAlike (line b r) (point p) (line b' r) (point p')
  | lines {b r c s b' c' : Point}
    (moment : r.cross s = 0 → r.cross (c - b) = r.cross (c' - b'))
    (volume : (r.cross s).dot (c - b) = (r.cross s).dot (c' - b')) :
    SpacedAlike (line b r) (line c s) (line b' r) (line c' s)
  | plane_point {n p p' : Point} {d d' : Rat} (height : n.dot p + d = n.dot p' + d') :
    SpacedAlike (plane n d) (point p) (plane n d') (point p')
  | line_plane {b r n b' : Point} {d d' : Rat} (height : n.dot b + d = n.dot b' + d') :
    SpacedAlike (line b r) (plane n d) (line b' r) (plane n d')
  | planes {m n : Point} {c d c' d' : Rat}
    (height : n.dot (m.onAxis c) + d = n.dot (m.onAxis c') + d') :
    SpacedAlike (plane m c) (plane n d) (plane m c') (plane n d')

end Figure

section

variable {b r c s b' c' p q p' q' m n : Point} {d e d' e' : Rat} {l k l' k' : Line}
  {P Q P' Q' : Plane} {u v u' v' : Vector}

theorem Vector.distance_concur (first : u.value? = some p) (second : v.value? = some q)
    (third : u'.value? = some p') (fourth : v'.value? = some q') (gap : q - p = q' - p') :
    Checked.Concur (u.distance v) (u'.distance v') := by
  obtain ⟨w, moved, w_value⟩ := between_exact first second
  obtain ⟨w', moved', w'_value⟩ := between_exact third fourth
  rw [distance, distance, moved, moved']
  exact length_concur w_value w'_value (by rw [gap])

theorem Line.distanceToPoint_concur (first : l.Denotes b r) (second : v.value? = some p)
    (third : l'.Denotes b' r) (fourth : v'.value? = some p')
    (moment : r.cross (p - b) = r.cross (p' - b')) :
    (l.distanceToPoint v).Concur (l'.distanceToPoint v') := by
  obtain ⟨w, moved, w_value⟩ := Vector.between_exact first.base second
  obtain ⟨w', moved', w'_value⟩ := Vector.between_exact third.base fourth
  have areas := Vector.area_concur first.direction w_value third.direction w'_value moment
  have lengths := Vector.length_concur first.direction third.direction rfl
  rw [distanceToPoint, distanceToPoint, moved, moved']
  simp only [Noted.lift_ok, Noted.done_bind]
  exact (Noted.Concur.lift areas).bind fun _ => (Noted.Concur.lift lengths).bind fun _ => .refl _

theorem Line.distance_concur (first : l.Denotes b r) (second : k.Denotes c s)
    (third : l'.Denotes b' r) (fourth : k'.Denotes c' s)
    (moment : r.cross s = 0 → r.cross (c - b) = r.cross (c' - b'))
    (volume : (r.cross s).dot (c - b) = (r.cross s).dot (c' - b')) :
    (l.distance k).Concur (l'.distance k') := by
  obtain ⟨x, crossed, x_value⟩ := Vector.cross_exact first.direction second.direction
  obtain ⟨x', crossed', x'_value⟩ := Vector.cross_exact third.direction fourth.direction
  rw [distance, distance, crossed, crossed']
  simp only [Noted.lift_ok, Noted.done_bind, Vector.isZero_of_exact x_value,
    Vector.isZero_of_exact x'_value, decide_eq_true_iff]
  split
  · rename_i parallel
    exact distanceToPoint_concur first second.base third fourth.base (moment parallel)
  · obtain ⟨w, moved, w_value⟩ := Vector.between_exact first.base second.base
    obtain ⟨w', moved', w'_value⟩ := Vector.between_exact third.base fourth.base
    obtain ⟨h, product, h_value⟩ := Vector.dot_exact x_value w_value
    obtain ⟨h', product', h'_value⟩ := Vector.dot_exact x'_value w'_value
    rw [← volume] at h'_value
    rw [moved, moved']
    simp only [Noted.lift_ok, Noted.done_bind, product, product']
    refine (Noted.Concur.lift (Vector.length_concur x_value x'_value rfl)).bind fun y => ?_
    exact Scalar.divide_concur (Scalar.abs_exact h_value) (Scalar.abs_exact h'_value) y

theorem Plane.distanceToPoint_concur (first : P.Denotes n d) (second : v.value? = some p)
    (third : P'.Denotes n d') (fourth : v'.value? = some p')
    (height : n.dot p + d = n.dot p' + d') :
    (P.distanceToPoint v).Concur (P'.distanceToPoint v') := by
  obtain ⟨x, product, x_value⟩ := Vector.dot_exact first.normal second
  obtain ⟨x', product', x'_value⟩ := Vector.dot_exact third.normal fourth
  obtain ⟨h, added, h_value⟩ := Scalar.add_exact x_value first.offset
  obtain ⟨h', added', h'_value⟩ := Scalar.add_exact x'_value third.offset
  rw [← height] at h'_value
  rw [distanceToPoint, distanceToPoint, product, product']
  simp only [Noted.lift_ok, Noted.done_bind, added, added']
  refine (Noted.Concur.lift (Vector.length_concur first.normal third.normal rfl)).bind fun y => ?_
  exact Scalar.divide_concur (Scalar.abs_exact h_value) (Scalar.abs_exact h'_value) y

theorem Plane.distanceToLine_concur (first : P.Denotes n d) (second : l.Denotes b r)
    (third : P'.Denotes n d') (fourth : l'.Denotes b' r) (height : n.dot b + d = n.dot b' + d') :
    (P.distanceToLine l).Concur (P'.distanceToLine l') := by
  have angles : Checked.Concur (P.normal.angleToPlane l.direction)
      (P'.normal.angleToPlane l'.direction) :=
    (Vector.angle_concur first.normal second.direction third.normal fourth.direction).bind
      fun _ => .same _
  refine (Noted.Concur.lift angles).bind fun angle => ?_
  split
  · exact distanceToPoint_concur first second.base third fourth.base height
  · exact .refl _

/-- The point on the first plane is another one after the move, and what counts is its height above
the second. -/
theorem Plane.distance_concur (first : P.Denotes m d) (second : Q.Denotes n e)
    (third : P'.Denotes m d') (fourth : Q'.Denotes n e') (nonzero : m ≠ 0)
    (height : n.dot (m.onAxis d) + e = n.dot (m.onAxis d') + e') :
    (P.distance Q).Concur (P'.distance Q') := by
  obtain ⟨w, picked, w_value⟩ := axisPoint_exact first nonzero
  obtain ⟨w', picked', w'_value⟩ := axisPoint_exact third nonzero
  have angles : Checked.Concur (P.normal.angleOfNormals Q.normal)
      (P'.normal.angleOfNormals Q'.normal) :=
    (Vector.angle_concur first.normal second.normal third.normal fourth.normal).bind
      fun _ => .same _
  refine (Noted.Concur.lift angles).bind fun angle => ?_
  split
  · rw [picked, picked', Noted.done_bind, Noted.done_bind]
    exact distanceToPoint_concur second w_value fourth w'_value height
  · exact .refl _

end

namespace Figure

theorem line_spacedAlike_slide {B : Figure} {b r : Point} {t : Rat} (round : B.kind ≠ .plane) :
    (line b r).SpacedAlike B (line (b + r.scale t) r) B := by
  have gap (c : Point) : c - (b + r.scale t) = c - b + r.scale (-t) := by
    ext <;> simp only [Point.sub_x, Point.sub_y, Point.sub_z, Point.add_x, Point.add_y,
      Point.add_z, Point.scale] <;> ring
  have moment (c : Point) : r.cross (c - b) = r.cross (c - (b + r.scale t)) := by
    rw [gap, Point.cross_add, Point.cross_scale, Point.cross_self, Point.zero_scale,
      Point.add_zero]
  cases B with
  | point p => exact .line_point (moment p)
  | line c s =>
    refine .lines (fun _ => moment c) ?_
    rw [gap, Point.dot_add, Point.dot_scale, Point.cross_dot_left, zero_mul, add_zero]
  | plane n d => exact absurd rfl round

theorem spacedAlike_slide_line {c s b r : Point} {t : Rat} :
    (line c s).SpacedAlike (line b r) (line c s) (line (b + r.scale t) r) := by
  have gap : b + r.scale t - c = b - c + r.scale t := by
    ext <;> simp only [Point.sub_x, Point.sub_y, Point.sub_z, Point.add_x, Point.add_y,
      Point.add_z] <;> ring
  refine .lines (fun parallel => ?_) ?_
  · rw [gap, Point.cross_add, Point.cross_scale, parallel, Point.zero_scale, Point.add_zero]
  · rw [gap, Point.dot_add, Point.dot_scale, Point.cross_dot_right, zero_mul, add_zero]

/-- Figures in the order of their kinds keep their relative position where they are moved by one
vector, planes if they are parallel. -/
theorem spacedAlike_translate {A B : Figure} (t : Point) (order : A.kind.rank ≤ B.kind.rank)
    (proper : ∀ n d, A = plane n d → n ≠ 0)
    (aligned : A.kind = .plane → B.kind = .plane → A.ParallelTo B) :
    A.SpacedAlike B (A.translate t) (B.translate t) := by
  have gap (p q : Point) : q - p = q + t - (p + t) := by
    ext <;> simp only [Point.sub_x, Point.sub_y, Point.sub_z, Point.add_x, Point.add_y,
      Point.add_z] <;> ring
  have height (n p : Point) (d : Rat) : n.dot p + d = n.dot (p + t) + (d - n.dot t) := by
    rw [Point.dot_add]
    ring
  cases A with
  | point p =>
    cases B with
    | point q => exact .points (gap p q)
    | line c s => exact absurd order (by simp [kind, Kind.rank])
    | plane n d => exact absurd order (by simp [kind, Kind.rank])
  | line b r =>
    cases B with
    | point p => exact .line_point (by rw [gap b p])
    | line c s => exact .lines (fun _ => by rw [gap b c]) (by rw [gap b c])
    | plane n d => exact .line_plane (height n b d)
  | plane m c =>
    cases B with
    | point p => exact .plane_point (height m p c)
    | line b r => exact absurd order (by simp [kind, Kind.rank])
    | plane n d =>
      have nonzero := proper m c rfl
      obtain ⟨k, rfl⟩ := (Point.exists_scale_iff nonzero).mpr (aligned rfl rfl)
      have here := Point.dot_onAxis nonzero c
      have there := Point.dot_onAxis nonzero (c - m.dot t)
      refine .planes ?_
      rw [Point.scale_dot, Point.scale_dot, Point.scale_dot]
      linear_combination k * here - k * there

end Figure

section

variable {a b f g h i a' b' : Element} {A B A' B' : Figure}

/-- Elements that are spaced alike have distances that concur. -/
theorem Element.distance?_concur (alike : A.SpacedAlike B A' B') (first : f.Equates A)
    (second : g.Equates B) (third : h.Equates A') (fourth : i.Equates B') :
    ∃ m n, f.distance? g = some m ∧ h.distance? i = some n ∧ m.Concur n := by
  cases alike with
  | points gap =>
    obtain ⟨u, rfl, u_value⟩ := first.exists_vector
    obtain ⟨v, rfl, v_value⟩ := second.exists_vector
    obtain ⟨w, rfl, w_value⟩ := third.exists_vector
    obtain ⟨z, rfl, z_value⟩ := fourth.exists_vector
    have distances := Vector.distance_concur u_value v_value w_value z_value gap
    exact ⟨_, _, rfl, rfl, (Noted.Concur.lift distances).bind fun _ => .refl _⟩
  | line_point moment =>
    obtain ⟨l, rfl, l_denotes, -⟩ := first.exists_line
    obtain ⟨v, rfl, v_value⟩ := second.exists_vector
    obtain ⟨k, rfl, k_denotes, -⟩ := third.exists_line
    obtain ⟨w, rfl, w_value⟩ := fourth.exists_vector
    exact ⟨_, _, rfl, rfl, Line.distanceToPoint_concur l_denotes v_value k_denotes w_value moment⟩
  | lines moment volume =>
    obtain ⟨l, rfl, l_denotes, -⟩ := first.exists_line
    obtain ⟨k, rfl, k_denotes, -⟩ := second.exists_line
    obtain ⟨l', rfl, l'_denotes, -⟩ := third.exists_line
    obtain ⟨k', rfl, k'_denotes, -⟩ := fourth.exists_line
    exact ⟨_, _, rfl, rfl,
      Line.distance_concur l_denotes k_denotes l'_denotes k'_denotes moment volume⟩
  | plane_point height =>
    obtain ⟨P, rfl, P_denotes, -⟩ := first.exists_plane
    obtain ⟨v, rfl, v_value⟩ := second.exists_vector
    obtain ⟨Q, rfl, Q_denotes, -⟩ := third.exists_plane
    obtain ⟨w, rfl, w_value⟩ := fourth.exists_vector
    exact ⟨_, _, rfl, rfl, Plane.distanceToPoint_concur P_denotes v_value Q_denotes w_value height⟩
  | line_plane height =>
    obtain ⟨l, rfl, l_denotes, -⟩ := first.exists_line
    obtain ⟨P, rfl, P_denotes, -⟩ := second.exists_plane
    obtain ⟨k, rfl, k_denotes, -⟩ := third.exists_line
    obtain ⟨Q, rfl, Q_denotes, -⟩ := fourth.exists_plane
    exact ⟨_, _, rfl, rfl,
      Plane.distanceToLine_concur P_denotes l_denotes Q_denotes k_denotes height⟩
  | planes height =>
    obtain ⟨P, rfl, P_denotes, nonzero⟩ := first.exists_plane
    obtain ⟨Q, rfl, Q_denotes, -⟩ := second.exists_plane
    obtain ⟨P', rfl, P'_denotes, -⟩ := third.exists_plane
    obtain ⟨Q', rfl, Q'_denotes, -⟩ := fourth.exists_plane
    exact ⟨_, _, rfl, rfl,
      Plane.distance_concur P_denotes Q_denotes P'_denotes Q'_denotes nonzero height⟩

theorem Element.Depicts.normal_ne_zero (depicts : a.Depicts A) (n : Point) (d : Rat)
    (plane : A = .plane n d) : n ≠ 0 := by
  subst plane
  obtain ⟨P, -, -, nonzero⟩ := depicts.exists_plane
  exact nonzero

theorem Figure.SpacedAlike.rank_le (alike : A.SpacedAlike B A' B') :
    A.kind.rank ≤ B.kind.rank := by
  cases alike <;> simp [kind, Kind.rank]

theorem Figure.SpacedAlike.kinds (alike : A.SpacedAlike B A' B') :
    A.kind = A'.kind ∧ B.kind = B'.kind := by
  cases alike <;> exact ⟨rfl, rfl⟩

/-- The operations that look at nothing but the distance of their operands. -/
def distanceOperations : List Operation := [.distance, .on]

theorem Operation.method?_concur {o : Operation} (measured : o ∈ distanceOperations)
    {m n : Computation Scalar} (here : f.distance? g = some m) (there : h.distance? i = some n)
    (concur : m.Concur n) :
    ∃ k j, o.method? f g = some k ∧ o.method? h i = some j ∧ k.Concur j := by
  simp only [distanceOperations, List.mem_cons, List.not_mem_nil, or_false] at measured
  rcases measured with rfl | rfl
  · exact ⟨_, _, Option.map_eq_some_iff.mpr ⟨_, here, rfl⟩,
      Option.map_eq_some_iff.mpr ⟨_, there, rfl⟩, concur.bind fun _ => .refl _⟩
  · exact ⟨_, _, Option.map_eq_some_iff.mpr ⟨_, here, rfl⟩,
      Option.map_eq_some_iff.mpr ⟨_, there, rfl⟩, concur.bind fun _ => .refl _⟩

theorem runMethod_concur {o : Operation} (measured : o ∈ distanceOperations)
    (alike : A.SpacedAlike B A' B') (first : f.Equates A) (second : g.Equates B)
    (third : h.Equates A') (fourth : i.Equates B') :
    (runMethod o.label f g).Concur (runMethod o.label h i) := by
  obtain ⟨m, n, here, there, concur⟩ := Element.distance?_concur alike first second third fourth
  obtain ⟨k, j, supported, supported', methods⟩ :=
    Operation.method?_concur measured here there concur
  obtain ⟨result, warnings⟩ := runMethod_of_method supported
  obtain ⟨result', warnings'⟩ := runMethod_of_method supported'
  constructor
  · rw [warnings, warnings', first.depicts.degeneracy?_eq, second.depicts.degeneracy?_eq,
      third.depicts.degeneracy?_eq, fourth.depicts.degeneracy?_eq, methods.warnings]
  · rw [result, result']
    exact methods.result

theorem Operands.inOrder_of_le (order : f.kind.rank ≤ g.kind.rank) :
    (inOrder f g).first = f ∧ (inOrder f g).second = g := by
  rw [inOrder, if_neg order.not_gt]
  exact ⟨rfl, rfl⟩

/-- Elements that are spaced alike may be given in either order, if their kinds tell them apart. -/
theorem operate_concur {o : Operation} (measured : o ∈ distanceOperations)
    (alike : A.SpacedAlike B A' B') (first : a.Depicts A) (second : b.Depicts B)
    (third : a'.Depicts A') (fourth : b'.Depicts B') :
    (operate o.label a b).Concur (operate o.label a' b') ∧
      (A.kind ≠ B.kind → (operate o.label b a).Concur (operate o.label b' a')) := by
  obtain ⟨f, f_equation, f_equates⟩ := first.equates
  obtain ⟨g, g_equation, g_equates⟩ := second.equates
  obtain ⟨h, h_equation, h_equates⟩ := third.equates
  obtain ⟨i, i_equation, i_equates⟩ := fourth.equates
  have run := runMethod_concur measured alike f_equates g_equates h_equates i_equates
  have f_kind := f_equates.kind_eq
  have g_kind := g_equates.kind_eq
  have h_kind := h_equates.kind_eq.trans alike.kinds.1.symm
  have i_kind := i_equates.kind_eq.trans alike.kinds.2.symm
  have order := alike.rank_le
  obtain ⟨here, there⟩ := Operands.inOrder_of_le (f_kind ▸ g_kind ▸ order)
  obtain ⟨here', there'⟩ := Operands.inOrder_of_le (h_kind ▸ i_kind ▸ order)
  constructor
  · have given := operate_alike o.label f_equation g_equation
    have moved := operate_alike o.label h_equation i_equation
    rw [here, there] at given
    rw [here', there'] at moved
    exact run.of_alike given moved
  · intro differ
    have given := operate_alike o.label g_equation f_equation
    have moved := operate_alike o.label i_equation h_equation
    obtain ⟨front, back⟩ := Operands.inOrder_comm (f_kind ▸ g_kind ▸ differ : f.kind ≠ g.kind)
    obtain ⟨front', back'⟩ := Operands.inOrder_comm (h_kind ▸ i_kind ▸ differ : h.kind ≠ i.kind)
    rw [← front, ← back, here, there] at given
    rw [← front', ← back', here', there'] at moved
    exact run.of_alike given moved

end

/-- The distance of two exact elements, and whether one is on the other, depend on their relative
position. They stay as they are where both elements are moved by one vector, two planes if they are
parallel, and where the base of a line is replaced by any of its points and the other element is a
point or a line. What one run warns of, the other warns of too, and if one ends in an arithmetic
fault, so does the other. -/
theorem distance_of_relative_position {name : String} (measured : name ∈ ["distance", "on?"])
    {a b : Element} {A B : Figure} (first : a.Depicts A) (second : b.Depicts B) :
    (∀ t a' b', a'.Depicts (A.translate t) → b'.Depicts (B.translate t) →
      (A.kind = .plane → B.kind = .plane → A.ParallelTo B) →
        (operate name a b).Concur (operate name a' b')) ∧
    (∀ l s r, a = .line l → s.rational? = some r → B.kind ≠ .plane →
      ∃ p, l.point s = .ok p ∧
        (operate name a b).Concur (operate name (.line ⟨p, l.direction⟩) b) ∧
          (operate name b a).Concur (operate name b (.line ⟨p, l.direction⟩))) := by
  obtain ⟨o, listed, rfl⟩ : ∃ o ∈ distanceOperations, o.label = name := List.mem_map.mp measured
  constructor
  · intro t a' b' third fourth aligned
    by_cases order : A.kind.rank ≤ B.kind.rank
    · have alike := Figure.spacedAlike_translate t order first.normal_ne_zero aligned
      exact (operate_concur listed alike first second third fourth).1
    · have differ : B.kind ≠ A.kind := fun same => order (by rw [same])
      have alike := Figure.spacedAlike_translate t (le_of_not_ge order) second.normal_ne_zero
        fun plane other => absurd (plane.trans other.symm) differ
      exact (operate_concur listed alike second first fourth third).2 differ
  · rintro l s r rfl parameter round
    cases first with
    | line denotes nonzero =>
      rename_i base direction
      obtain ⟨p, reached, p_value⟩ := denotes.reaches_iff.mpr rfl s parameter
      have moved : (Element.line ⟨p, l.direction⟩).Depicts
          (.line (base + direction.scale r) direction) :=
        .line ⟨p_value, denotes.direction⟩ nonzero
      have given : (Element.line l).Depicts (.line base direction) := .line denotes nonzero
      have front := operate_concur listed (Figure.line_spacedAlike_slide round) given second moved
        second
      refine ⟨p, reached, front.1, ?_⟩
      cases B with
      | point q => exact front.2 (by simp [Figure.kind])
      | line c s =>
        exact (operate_concur listed Figure.spacedAlike_slide_line second given second moved).1
      | plane n d => exact absurd rfl round

/-- Two parallel planes, of which one is given by directions, are moved by half a unit, and the base
of a line is moved by a third of its direction. -/
theorem distance_of_relative_position_moved :
    (operate "distance" (.plane ⟨⟨1, 0, 0⟩, 0⟩) (.span ⟨⟨3, 0, 0⟩, ⟨0, 1, 0⟩, ⟨0, 0, 2⟩⟩)).Concur
      (operate "distance" (.plane ⟨⟨1, 0, 0⟩, .ratio (-1 / 2)⟩)
        (.span ⟨⟨.ratio (7 / 2), 0, 0⟩, ⟨0, 1, 0⟩, ⟨0, 0, 2⟩⟩)) ∧
    ∃ p, (⟨⟨0, 0, 1⟩, ⟨1, 2, 3⟩⟩ : Line).point (.ratio (1 / 3)) = .ok p ∧
      (operate "on?" (.vector ⟨1, 2, 4⟩) (.line ⟨⟨0, 0, 1⟩, ⟨1, 2, 3⟩⟩)).Concur
        (operate "on?" (.vector ⟨1, 2, 4⟩) (.line ⟨p, ⟨1, 2, 3⟩⟩)) := by
  have first : (Element.plane ⟨⟨1, 0, 0⟩, 0⟩).Depicts (.plane ⟨1, 0, 0⟩ 0) :=
    .plane ⟨rfl, rfl⟩ (by decide +kernel)
  have second : (Element.span ⟨⟨3, 0, 0⟩, ⟨0, 1, 0⟩, ⟨0, 0, 2⟩⟩).Depicts _ :=
    .span ⟨rfl, rfl, rfl⟩ (by decide +kernel)
  have line : (Element.line ⟨⟨0, 0, 1⟩, ⟨1, 2, 3⟩⟩).Depicts (.line ⟨0, 0, 1⟩ ⟨1, 2, 3⟩) :=
    .line ⟨rfl, rfl⟩ (by decide +kernel)
  have point : (Element.vector ⟨1, 2, 4⟩).Depicts (.point ⟨1, 2, 4⟩) := .vector rfl
  constructor
  · refine (distance_of_relative_position (by decide) first second).1 ⟨1 / 2, 0, 0⟩ _ _ ?_ ?_ ?_
    · exact .plane ⟨rfl, by decide +kernel⟩ (by decide +kernel)
    · have moved : (Element.span ⟨⟨.ratio (7 / 2), 0, 0⟩, ⟨0, 1, 0⟩, ⟨0, 0, 2⟩⟩).Depicts _ :=
        .span ⟨rfl, rfl, rfl⟩ (by decide +kernel)
      have offsets : -Point.dot ⟨7 / 2, 0, 0⟩ (Point.cross ⟨0, 1, 0⟩ ⟨0, 0, 2⟩) =
          -Point.dot ⟨3, 0, 0⟩ (Point.cross ⟨0, 1, 0⟩ ⟨0, 0, 2⟩) -
            (Point.cross ⟨0, 1, 0⟩ ⟨0, 0, 2⟩).dot ⟨1 / 2, 0, 0⟩ := by
        decide +kernel
      rw [Figure.translate]
      exact offsets ▸ moved
    · intro _ _
      change Point.cross _ _ = 0
      decide +kernel
  · have named : "on?" ∈ ["distance", "on?"] := by decide
    obtain ⟨p, reached, -, moved⟩ := (distance_of_relative_position named line point).2 _
      (.ratio (1 / 3)) (1 / 3) rfl rfl (by decide)
    exact ⟨p, reached, moved⟩

end SolidGeometry
