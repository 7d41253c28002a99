import SolidGeometry.Proofs.Geometry.Figure

namespace SolidGeometry

/-- The exact point of a line at a parameter, whatever exact number stands for it. -/
def Line.Reaches (l : Line) (t : Rat) (p : Point) : Prop :=
  ∀ a : Scalar, a.rational? = some t → YieldsPoint (l.point a) p

def Line.Contains (l : Line) (p : Point) : Prop := ∃ t, l.Reaches t p

/-- A line of exact vectors and their values. -/
structure Line.Denotes (l : Line) (base direction : Point) : Prop where
  base : l.base.value? = some base
  direction : l.direction.value? = some direction

theorem Line.Denotes.reaches_iff {l : Line} {base direction p : Point} {t : Rat}
    (denotes : l.Denotes base direction) : l.Reaches t p ↔ p = base + direction.scale t := by
  have reached : l.Reaches t (base + direction.scale t) := by
    intro a at_t
    obtain ⟨u, along, u_value⟩ := Vector.scale_exact denotes.direction at_t
    obtain ⟨w, moved, w_value⟩ := Vector.add_exact denotes.base u_value
    refine ⟨w, ?_, w_value⟩
    simp only [point, along, moved, bind, Except.bind]
  constructor
  · intro reaches
    exact yieldsPoint_unique (reaches (.ratio t) rfl) (reached (.ratio t) rfl)
  · rintro rfl
    exact reached

theorem Line.Denotes.contains_iff {l : Line} {base direction p : Point}
    (denotes : l.Denotes base direction) :
    l.Contains p ↔ ∃ t, p = base + direction.scale t :=
  exists_congr fun _ => denotes.reaches_iff

namespace Element

/-- The exact points of an element. -/
def Contains : Element → Point → Prop
  | vector v, p => v.value? = some p
  | line l, p => l.Contains p
  | plane P, p => P.Contains p
  | span S, p => S.Contains p

/-- Two elements have an exact point in common. -/
def Touches (a b : Element) : Prop := ∃ p, a.Contains p ∧ b.Contains p

/-- An element of exact numbers with the directions or the normal that it needs, and its figure. -/
inductive Depicts : Element → Figure → Prop
  | vector {v : Vector} {p : Point} (value : v.value? = some p) : Depicts (vector v) (.point p)
  | line {l : Line} {base direction : Point} (denotes : l.Denotes base direction)
      (nonzero : direction ≠ 0) : Depicts (line l) (.line base direction)
  | plane {P : Plane} {normal : Point} {offset : Rat} (denotes : P.Denotes normal offset)
      (nonzero : normal ≠ 0) : Depicts (plane P) (.plane normal offset)
  | span {S : Span} {base first second : Point} (denotes : S.Denotes base first second)
      (independent : first.cross second ≠ 0) :
      Depicts (span S) (.plane (first.cross second) (-base.dot (first.cross second)))

variable {a b e : Element} {A B F : Figure} {p : Point}

theorem Depicts.contains_iff (depicts : e.Depicts F) : e.Contains p ↔ F.Contains p := by
  cases depicts with
  | vector value =>
    simp only [Contains, Figure.Contains, value, Option.some.injEq]
    exact eq_comm
  | line denotes nonzero => exact denotes.contains_iff
  | plane denotes nonzero => exact denotes.contains_iff
  | span denotes independent => exact denotes.contains_iff (frames_of_cross _ _ _) independent

theorem touches_iff (first : a.Depicts A) (second : b.Depicts B) : a.Touches b ↔ A.Touches B := by
  simp only [Touches, Figure.Touches, first.contains_iff, second.contains_iff]

/-- The equation of an element stands for the same figure. -/
theorem Depicts.toEquation (depicts : e.Depicts F) :
    ∃ f, e.toEquation = .ok f ∧ f.Depicts F ∧ f.kind ≠ .span := by
  cases depicts with
  | vector value => exact ⟨_, rfl, .vector value, by simp [kind]⟩
  | line denotes nonzero => exact ⟨_, rfl, .line denotes nonzero, by simp [kind]⟩
  | plane denotes nonzero => exact ⟨_, rfl, .plane denotes nonzero, by simp [kind]⟩
  | span denotes independent =>
    obtain ⟨P, converted, equation⟩ := denotes.toPlane
    refine ⟨.plane P, ?_, .plane equation independent, by simp [kind]⟩
    simp only [Element.toEquation, converted, bind, Except.bind, pure, Except.pure]

/-- A plane in any form has an equation. -/
theorem Depicts.exists_plane {n : Point} {d : Rat} (depicts : e.Depicts (.plane n d)) :
    ∃ P, e.toEquation = .ok (.plane P) ∧ P.Denotes n d ∧ n ≠ 0 := by
  obtain ⟨f, equation, shown, bare⟩ := depicts.toEquation
  cases shown with
  | plane denotes nonzero => exact ⟨_, equation, denotes, nonzero⟩
  | span denotes independent => exact absurd rfl bare

end Element

end SolidGeometry
