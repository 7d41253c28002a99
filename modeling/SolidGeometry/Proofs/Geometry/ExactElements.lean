import SolidGeometry.Proofs.Evaluation.Rendering
import SolidGeometry.Proofs.Geometry.Depiction

namespace SolidGeometry

theorem Vector.forall_toList_iff {v : Vector} :
    (∀ n ∈ v.toList, ∃ q, n.rational? = some q) ↔ ∃ p, v.value? = some p := by
  simp only [toList, List.forall_mem_cons, List.not_mem_nil, false_implies, implies_true, and_true]
  constructor
  · rintro ⟨⟨x, at_x⟩, ⟨y, at_y⟩, z, at_z⟩
    exact ⟨⟨x, y, z⟩, value?_eq_some.mpr ⟨at_x, at_y, at_z⟩⟩
  · rintro ⟨p, value⟩
    obtain ⟨x, y, z⟩ := value?_eq_some.mp value
    exact ⟨⟨_, x⟩, ⟨_, y⟩, _, z⟩

namespace Element

/-- All numbers of an element are exact. -/
def IsExact (e : Element) : Prop := ∀ n ∈ e.numbers, ∃ q, n.rational? = some q

theorem isExact_vector {v : Vector} : (vector v).IsExact ↔ ∃ p, v.value? = some p :=
  Vector.forall_toList_iff

theorem isExact_line {l : Line} :
    (line l).IsExact ↔ ∃ base direction, l.Denotes base direction := by
  rw [IsExact, numbers, List.forall_mem_append, Vector.forall_toList_iff, Vector.forall_toList_iff]
  constructor
  · rintro ⟨⟨base, at_base⟩, direction, at_direction⟩
    exact ⟨base, direction, at_base, at_direction⟩
  · rintro ⟨base, direction, denotes⟩
    exact ⟨⟨base, denotes.base⟩, direction, denotes.direction⟩

theorem isExact_plane {P : Plane} :
    (plane P).IsExact ↔ ∃ normal offset, P.Denotes normal offset := by
  rw [IsExact, numbers, List.forall_mem_append, Vector.forall_toList_iff, List.forall_mem_singleton]
  constructor
  · rintro ⟨⟨normal, at_normal⟩, offset, at_offset⟩
    exact ⟨normal, offset, at_normal, at_offset⟩
  · rintro ⟨normal, offset, denotes⟩
    exact ⟨⟨normal, denotes.normal⟩, offset, denotes.offset⟩

theorem isExact_span {S : Span} :
    (span S).IsExact ↔ ∃ base first second, S.Denotes base first second := by
  rw [IsExact, numbers, List.forall_mem_append, List.forall_mem_append, Vector.forall_toList_iff,
    Vector.forall_toList_iff, Vector.forall_toList_iff]
  constructor
  · rintro ⟨⟨⟨base, at_base⟩, first, at_first⟩, second, at_second⟩
    exact ⟨base, first, second, at_base, at_first, at_second⟩
  · rintro ⟨base, first, second, denotes⟩
    exact ⟨⟨⟨base, denotes.base⟩, first, denotes.first⟩, second, denotes.second⟩

/-- The equation of an exact element is exact. -/
theorem IsExact.toEquation {e : Element} (exact : e.IsExact) :
    ∃ f, e.toEquation = .ok f ∧ f.IsExact ∧ f.kind ≠ .span := by
  cases e with
  | vector v => exact ⟨_, rfl, exact, by simp [kind]⟩
  | line l => exact ⟨_, rfl, exact, by simp [kind]⟩
  | plane P => exact ⟨_, rfl, exact, by simp [kind]⟩
  | span S =>
    obtain ⟨base, first, second, denotes⟩ := isExact_span.mp exact
    obtain ⟨P, converted, equation⟩ := denotes.toPlane
    refine ⟨.plane P, ?_, isExact_plane.mpr ⟨_, _, equation⟩, by simp [kind]⟩
    simp only [Element.toEquation, converted, bind, Except.bind, pure, Except.pure]

/-- What stands for a figure once it is brought to its equation stood for it before. -/
theorem IsExact.depicts_of_equation {e f : Element} {F : Figure} (exact : e.IsExact)
    (equation : e.toEquation = .ok f) (depicts : f.Depicts F) : e.Depicts F := by
  cases e with
  | vector v =>
    cases equation
    exact depicts
  | line l =>
    cases equation
    exact depicts
  | plane P =>
    cases equation
    exact depicts
  | span S =>
    obtain ⟨base, first, second, spans⟩ := isExact_span.mp exact
    obtain ⟨P, converted, denotes⟩ := spans.toPlane
    simp only [Element.toEquation, converted, bind, Except.bind, pure, Except.pure,
      Except.ok.injEq] at equation
    subst equation
    cases depicts with
    | plane other nonzero =>
      cases denotes.normal.symm.trans other.normal
      cases denotes.offset.symm.trans other.offset
      exact .span spans nonzero

end Element

end SolidGeometry
