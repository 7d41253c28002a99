import SolidGeometry.Proofs.Geometry.Directions

namespace SolidGeometry
open Number

/-- The angle of two directions is taken for that of parallel ones. -/
def TakenForStraight (r s : Point) : Prop :=
  ∃ a, r.toVector.angleOrZero s.toVector = .ok a ∧ isParallelAngle a = true

/-- The measured angle and distance of two lines tell whether they are skew: directions that are
taken for parallel are those of lines that touch, and the distance of all others is discerned. -/
def SkewDiscerned (b r c s : Point) : Prop :=
  r.cross s ≠ 0 →
    (TakenForStraight r s → (Figure.line b r).Touches (.line c s)) ∧
      (¬TakenForStraight r s → (Figure.line b r).Discerned (.line c s))

section

variable {l k : Line} {u v : Vector} {b r c s : Point} {a : Float} {flag : Bool}

theorem Vector.angleOrZero_congr (first : u.value? = some r) (second : v.value? = some s) :
    u.angleOrZero v = .ok a ↔ r.toVector.angleOrZero s.toVector = .ok a := by
  unfold angleOrZero
  simp only [Checked.bind_eq_ok]
  simp only [angle_congr first second r.value?_toVector s.value?_toVector]

theorem takenForStraight_of_cross (r_nonzero : r ≠ 0) (s_nonzero : s ≠ 0)
    (parallel : r.cross s = 0) : TakenForStraight r s := by
  refine ⟨_, Vector.angleOrZero_straight r.value?_toVector s.value?_toVector r_nonzero s_nonzero
    parallel, ?_⟩
  split
  · decide
  · decide

theorem not_takenForStraight_of_dot (r_nonzero : r ≠ 0) (s_nonzero : s ≠ 0)
    (perpendicular : r.dot s = 0) : ¬TakenForStraight r s := by
  rintro ⟨a, found, taken⟩
  cases (Vector.angleOrZero_right r.value?_toVector s.value?_toVector r_nonzero s_nonzero
    perpendicular).symm.trans found
  cases taken

/-- Lines whose directions are taken for parallel are not skew, all others if their distance is not
measured as zero. -/
theorem Line.isSkewedTo_cases (first : l.Denotes b r) (second : k.Denotes c s)
    (returns : (l.isSkewedTo k).result = .ok flag) :
    TakenForStraight r s ∧ flag = false ∨
      ¬TakenForStraight r s ∧ ∃ x, (l.distance k).result = .ok x ∧ flag = !x.isZero := by
  simp only [isSkewedTo, Noted.result_bind, Noted.result_lift] at returns
  obtain ⟨a, found, told⟩ := returns
  rw [Vector.angleOrZero_congr first.direction second.direction] at found
  split at told
  · rename_i taken
    cases told
    exact .inl ⟨⟨a, found, taken⟩, rfl⟩
  · rename_i slanted
    obtain ⟨x, measured, result⟩ := Noted.result_bind.mp told
    cases result
    refine .inr ⟨?_, x, measured, rfl⟩
    rintro ⟨other, same, taken⟩
    cases found.symm.trans same
    exact slanted taken

/-- A verdict on two lines is right if they are discerned as skew or not. -/
theorem Line.skew_discerned (first : l.Denotes b r) (second : k.Denotes c s) (r_nonzero : r ≠ 0)
    (s_nonzero : s ≠ 0) (returns : (l.isSkewedTo k).result = .ok flag) :
    (flag = true → r.cross s ≠ 0) ∧
      ((flag = true ↔ r.cross s ≠ 0 ∧ ¬(Figure.line b r).Touches (.line c s)) ↔
        SkewDiscerned b r c s) := by
  rcases isSkewedTo_cases first second returns with ⟨taken, rfl⟩ | ⟨slanted, x, measured, rfl⟩
  · refine ⟨nofun, ?_⟩
    simp [SkewDiscerned, taken]
  · have independent : r.cross s ≠ 0 := fun parallel =>
      slanted (takenForStraight_of_cross r_nonzero s_nonzero parallel)
    have discerned := discerned_line first second r_nonzero measured
    refine ⟨fun _ => independent, ?_⟩
    rw [SkewDiscerned, ← discerned]
    cases x.isZero with
    | false => simp [slanted, independent]
    | true => simp [slanted, independent]

end

/-- Where the verdict on two exact lines is right: it tells whether they are neither parallel nor
touch exactly if they are discerned. Parallel lines are never taken for skew. -/
theorem skewed_iff_discerned {l k : Line} {b r c s : Point} {value : Value}
    (first : l.Denotes b r) (second : k.Denotes c s) (r_nonzero : r ≠ 0) (s_nonzero : s ≠ 0)
    (returns : (operate "skewed?" (.line l) (.line k)).result = .ok value) :
    ∃ flag, value = .flag flag ∧ (flag = true → r.cross s ≠ 0) ∧
      ((flag = true ↔ r.cross s ≠ 0 ∧ ¬(Element.line l).Touches (.line k)) ↔
        SkewDiscerned b r c s) := by
  obtain ⟨method, supported, result⟩ := (operate_eq_ok (o := .skewed) rfl rfl).mp returns
  cases supported
  obtain ⟨flag, measured, same⟩ := Noted.result_bind.mp result
  cases same
  rw [Element.touches_iff (.line first r_nonzero) (.line second s_nonzero)]
  exact ⟨flag, rfl, Line.skew_discerned first second r_nonzero s_nonzero measured⟩

/-- Two lines through one point, of directions so short that they are taken for skew. -/
theorem skewed_iff_discerned_crossing :
    (Element.line ⟨⟨0, 0, 0⟩, ⟨.ratio (1 / 10 ^ 200), 0, 0⟩⟩).Touches
        (.line ⟨⟨0, 0, 0⟩, ⟨0, .ratio (1 / 10 ^ 200), 0⟩⟩) ∧
      (operate "skewed?" (.line ⟨⟨0, 0, 0⟩, ⟨.ratio (1 / 10 ^ 200), 0, 0⟩⟩)
        (.line ⟨⟨0, 0, 0⟩, ⟨0, .ratio (1 / 10 ^ 200), 0⟩⟩)).result = .ok (.flag true) := by
  let r : Point := ⟨1 / 10 ^ 200, 0, 0⟩
  let s : Point := ⟨0, 1 / 10 ^ 200, 0⟩
  have first : Line.Denotes ⟨⟨0, 0, 0⟩, ⟨.ratio (1 / 10 ^ 200), 0, 0⟩⟩ 0 r := ⟨rfl, rfl⟩
  have second : Line.Denotes ⟨⟨0, 0, 0⟩, ⟨0, .ratio (1 / 10 ^ 200), 0⟩⟩ 0 s := ⟨rfl, rfl⟩
  have r_nonzero : r ≠ 0 := by decide +kernel
  have s_nonzero : s ≠ 0 := by decide +kernel
  have independent : r.cross s ≠ 0 := by decide +kernel
  have touches := (Element.touches_iff (.line first r_nonzero) (.line second s_nonzero)).mpr
    ⟨0, ⟨0, by decide +kernel⟩, 0, by decide +kernel⟩
  have hidden : ¬SkewDiscerned 0 r 0 s := by
    intro discerned
    have slanted := not_takenForStraight_of_dot r_nonzero s_nonzero (by decide +kernel)
    have clear := (discerned independent).2 slanted
    rw [Figure.Discerned, if_neg independent, Discerns, if_pos (by decide +kernel)] at clear
    apply clear
    unfold Vanishes
    decide +kernel
  have returned : (operate "skewed?" (.line ⟨⟨0, 0, 0⟩, ⟨.ratio (1 / 10 ^ 200), 0, 0⟩⟩)
      (.line ⟨⟨0, 0, 0⟩, ⟨0, .ratio (1 / 10 ^ 200), 0⟩⟩)).result.isOk = true := by
    decide +kernel
  refine ⟨touches, ?_⟩
  cases returns : (operate "skewed?" (.line ⟨⟨0, 0, 0⟩, ⟨.ratio (1 / 10 ^ 200), 0, 0⟩⟩)
      (.line ⟨⟨0, 0, 0⟩, ⟨0, .ratio (1 / 10 ^ 200), 0⟩⟩)).result with
  | error fault =>
    rw [returns] at returned
    cases returned
  | ok value =>
    obtain ⟨flag, rfl, _, told⟩ :=
      skewed_iff_discerned first second r_nonzero s_nonzero returns
    cases flag with
    | true => rfl
    | false =>
      exact absurd (told.mp (iff_of_false Bool.false_ne_true fun skew => skew.2 touches)) hidden

end SolidGeometry
