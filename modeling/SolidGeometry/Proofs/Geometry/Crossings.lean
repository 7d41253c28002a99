import SolidGeometry.Proofs.Geometry.Directions

namespace SolidGeometry

/-- Vectors with a cross product are not zero. -/
theorem Point.ne_zero_of_cross {p q : Point} (independent : p.cross q ≠ 0) : p ≠ 0 ∧ q ≠ 0 := by
  constructor
  · rintro rfl
    exact independent (by ext <;> simp [cross])
  · rintro rfl
    exact independent (by ext <;> simp [cross])

namespace Figure

variable {b c p q r s : Point} {F : Figure}

/-- Lines of different directions have at most one point in common. -/
theorem common_unique (independent : r.cross s ≠ 0) (first : (line b r).Contains p)
    (second : (line c s).Contains p) (third : (line b r).Contains q)
    (fourth : (line c s).Contains q) : p = q := by
  obtain ⟨t, rfl⟩ := first
  obtain ⟨t', rfl⟩ := third
  obtain ⟨u, gap⟩ := line_contains_along.mp second
  obtain ⟨u', same_gap⟩ := line_contains_along.mp fourth
  obtain ⟨at_p, -⟩ := Point.parameters_of_combine independent gap
  obtain ⟨at_q, -⟩ := Point.parameters_of_combine independent same_gap
  rw [at_p, at_q]

/-- What lines of different directions have in common is a point of both. -/
theorem crossing_spec (independent : r.cross s ≠ 0) (crosses : crossing b r c s = some F) :
    ∃ p, F = point p ∧ (line b r).Contains p ∧ (line c s).Contains p := by
  unfold crossing at crosses
  split_ifs at crosses with coplanar
  cases crosses
  rw [Point.dot_comm] at coplanar
  have gap := Point.combine_of_dot_eq_zero independent coplanar
  exact ⟨_, rfl, ⟨_, rfl⟩, line_contains_along.mpr ⟨_, gap⟩⟩

theorem crossing_eq_none (independent : r.cross s ≠ 0) :
    crossing b r c s = none ↔ ¬(line b r).Touches (line c s) := by
  rw [line_touches_line independent, Point.dot_comm, ← crossing_isSome,
    Option.not_isSome_iff_eq_none]

/-- Lines cross in the same point in either order. -/
theorem crossing_comm (independent : r.cross s ≠ 0) : crossing b r c s = crossing c s b r := by
  have turned : s.cross r ≠ 0 := independent ∘ Point.cross_eq_zero_comm.mp
  cases there : crossing b r c s with
  | none =>
    rw [crossing_eq_none independent, touches_comm, ← crossing_eq_none turned] at there
    exact there.symm
  | some F =>
    cases back : crossing c s b r with
    | none =>
      rw [crossing_eq_none turned, touches_comm, ← crossing_eq_none independent, there] at back
      cases back
    | some G =>
      obtain ⟨p, rfl, first, second⟩ := crossing_spec independent there
      obtain ⟨q, rfl, third, fourth⟩ := crossing_spec turned back
      rw [common_unique independent first second fourth third]

end Figure

section

variable {l k : Line} {b c r s : Point}

/-- The intersection of two lines of different directions is what the lines have in common. -/
theorem Line.intersection_answers (first : l.Denotes b r) (second : k.Denotes c s)
    (independent : r.cross s ≠ 0) : ∃ value,
      Operation.intersection.Answers (.line l) (.line k) value ∧
        value.Shows (Figure.crossing b r c s) := by
  obtain ⟨r_nonzero, s_nonzero⟩ := Point.ne_zero_of_cross independent
  obtain ⟨o, met, shows⟩ := intersection_exact first second independent
  refine ⟨_, ?_, Element.Shows.value shows⟩
  exact Operation.answers_of_method rfl rfl (Element.Depicts.line first r_nonzero).degeneracy?_eq
    (Element.Depicts.line second s_nonzero).degeneracy?_eq rfl ((Noted.Quiet.of_eq met).map _)

end

/-- Two exact lines of different directions have the value none as their intersection if they have
no point in common, and otherwise an exact point, which is the only one on both. No warning is left,
and the lines may be exchanged. -/
theorem intersection_of_lines {l k : Line} {b c r s : Point} (first : l.Denotes b r)
    (second : k.Denotes c s) (independent : r.cross s ≠ 0) :
    ∃ v w, Operation.intersection.Answers (.line l) (.line k) v ∧
      Operation.intersection.Answers (.line k) (.line l) w ∧ v.eqv w = true ∧
      (v = .none ↔ ∀ p, ¬(l.Contains p ∧ k.Contains p)) ∧
      (v ≠ .none → ∃ u p, v = .element (.vector u) ∧ u.value? = some p ∧
        (l.Contains p ∧ k.Contains p) ∧ ∀ q, l.Contains q → k.Contains q → q = p) := by
  have turned : s.cross r ≠ 0 := independent ∘ Point.cross_eq_zero_comm.mp
  obtain ⟨v, answers, shows⟩ := Line.intersection_answers first second independent
  obtain ⟨w, swapped, shows_too⟩ := Line.intersection_answers second first turned
  rw [← Figure.crossing_comm independent] at shows_too
  have on_first (p : Point) : l.Contains p ↔ (Figure.line b r).Contains p :=
    exists_congr fun _ => first.reaches_iff
  have on_second (p : Point) : k.Contains p ↔ (Figure.line c s).Contains p :=
    exists_congr fun _ => second.reaches_iff
  simp only [on_first, on_second]
  refine ⟨v, w, answers, swapped, shows.eqv shows_too, ?_⟩
  cases crosses : Figure.crossing b r c s with
  | none =>
    rw [crosses] at shows
    cases shows
    have apart := (Figure.crossing_eq_none independent).mp crosses
    exact ⟨iff_of_true rfl (not_exists.mp apart), fun some => absurd rfl some⟩
  | some F =>
    rw [crosses] at shows
    obtain ⟨p, rfl, on_l, on_k⟩ := Figure.crossing_spec independent crosses
    obtain _ | ⟨⟨u⟩⟩ := shows
    refine ⟨iff_of_false Value.noConfusion fun apart => apart p ⟨on_l, on_k⟩, fun _ => ?_⟩
    refine ⟨_, p, rfl, u, ⟨on_l, on_k⟩, fun q third fourth => ?_⟩
    exact Figure.common_unique independent third fourth on_l on_k

/-- Two lines through a point that is the base of neither. -/
theorem intersection_of_lines_fractions : ∃ u, Operation.intersection.Answers
    (.line ⟨⟨.ratio (1 / 2), 0, 0⟩, ⟨1, 2, 3⟩⟩)
    (.line ⟨⟨.ratio (3 / 2), 7, 6⟩, ⟨.ratio (1 / 3), .int (-1), 0⟩⟩) (.element (.vector u)) ∧
      u.value? = some ⟨5 / 2, 4, 6⟩ := by
  have first : Line.Denotes ⟨⟨.ratio (1 / 2), 0, 0⟩, ⟨1, 2, 3⟩⟩ ⟨1 / 2, 0, 0⟩ ⟨1, 2, 3⟩ :=
    ⟨rfl, rfl⟩
  have second : Line.Denotes ⟨⟨.ratio (3 / 2), 7, 6⟩, ⟨.ratio (1 / 3), .int (-1), 0⟩⟩
      ⟨3 / 2, 7, 6⟩ ⟨1 / 3, -1, 0⟩ := ⟨rfl, rfl⟩
  obtain ⟨v, _, answers, -, -, missing, found⟩ :=
    intersection_of_lines first second (by decide +kernel)
  have on_first : Line.Contains _ ⟨5 / 2, 4, 6⟩ := ⟨2, first.reaches_iff.mpr (by decide +kernel)⟩
  have on_second : Line.Contains _ ⟨5 / 2, 4, 6⟩ := ⟨3, second.reaches_iff.mpr (by decide +kernel)⟩
  have common : v ≠ .none := fun none => missing.mp none _ ⟨on_first, on_second⟩
  obtain ⟨u, p, rfl, value, -, only⟩ := found common
  rw [← only _ on_first on_second] at value
  exact ⟨u, answers, value⟩

end SolidGeometry
