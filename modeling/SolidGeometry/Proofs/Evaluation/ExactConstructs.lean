import SolidGeometry.Proofs.Evaluation.Failures
import SolidGeometry.Proofs.Geometry.Unmeasured

/-! Constructs of exact parts. Literals without decimal places are exact, and what a construct makes
of exact parts is exact too, unless there was a warning or its function measures. A nested call may
have been measured, but then it is a number, which no function takes for an element. -/
namespace SolidGeometry
open Grammar

variable {warned : Prop}

theorem Number.mem_of_places {text places : List Char} {l : Number.Literal}
    (scanned : Number.Literal.ofText? (String.ofList text) = some l)
    (decimal : l.tail = .places places) : '.' ∈ text := by
  obtain ⟨l, rfl, rfl⟩ := Number.exists_text (Number.Literal.ofText?_eq_some.mp scanned)
  rw [Number.SpacedLiteral.text, decimal]
  exact List.mem_append_right _ List.mem_cons_self

/-- A literal without decimal places is exact, unless it warns of its denominator. -/
theorem Number.Literal.keeps_value {l : Number.Literal}
    (whole : ∀ places, l.tail ≠ .places places) :
    l.value.Keeps warned (Scalar.ExactUnless warned) := by
  unfold Number.Literal.value
  split
  · exact .bind (.any _) fun n _ => .pure (Scalar.exactUnless_int _)
  · rename_i places decimal
    exact absurd decimal (whole places)
  · refine .bind (.any _) fun denominator _ => ?_
    split
    · exact .bind (.warn _) fun _ known => .pure (.inr ⟨rfl, known⟩)
    · exact .bind (.any _) fun n _ => .pure (.inl ⟨_, Scalar.rational?_ofRat _⟩)

/-- A value that is exact as an operand: where it is an element. -/
def Value.Usable (warned : Prop) (v : Value) : Prop :=
  ∀ e, v = .element e → e.ExactUnless warned

theorem Value.ExactUnless.usable {v : Value} (exact : v.ExactUnless warned) :
    v.Usable warned := by
  rintro e rfl
  exact exactUnless_element.mp exact

theorem Value.ResultOf.usable {name : String} {v : Value} (result : v.ResultOf warned name) :
    v.Usable warned := by
  rcases result with exact | ⟨-, n, rfl⟩
  · exact exact.usable
  · intro e same
    cases same

theorem Value.ExactUnless.scalar {v : Value} {n : Scalar} (exact : v.ExactUnless warned)
    (found : v.scalar? = some n) : n.ExactUnless warned := by
  unfold Value.scalar? at found
  split at found
  · cases found
    exact exactUnless_number.mp exact
  · cases found

theorem mem_of_mapM {α : Type} {pick : Value → Option α} {operands : List Value}
    {found : List α} (picked : operands.mapM pick = some found) {a : α} (member : a ∈ found) :
    ∃ v ∈ operands, pick v = some a := by
  induction operands generalizing found with
  | nil =>
    cases picked
    cases member
  | cons v vs ih =>
    simp only [List.mapM_cons, Option.bind_eq_bind, Option.bind_eq_some_iff] at picked
    obtain ⟨b, first, rest, later, same⟩ := picked
    cases same
    rcases List.mem_cons.mp member with rfl | behind
    · exact ⟨v, List.mem_cons_self, first⟩
    · obtain ⟨w, listed, second⟩ := ih later behind
      exact ⟨w, List.mem_cons_of_mem _ listed, second⟩

/-- A function is only run on operands of the kind that it needs. -/
theorem keeps_withOperands {α : Type} {R : α → Prop} {P : Value → Prop} {name : String}
    {pick : Value → Option α} {operands : List Value} {next? : List α → Option (Computation Value)}
    {m : Computation Value} (picked : ∀ v ∈ operands, ∀ a, pick v = some a → R a)
    (next : ∀ found, (∀ a ∈ found, R a) → ∀ m, next? found = some m → m.Keeps warned P)
    (computed : withOperands (operandsAs name pick operands) next? = some m) :
    m.Keeps warned P := by
  unfold operandsAs at computed
  cases all : operands.mapM pick with
  | none =>
    rw [all] at computed
    cases computed
    exact .fail _
  | some found =>
    rw [all] at computed
    refine next found (fun a member => ?_) m computed
    obtain ⟨v, listed, taken⟩ := mem_of_mapM all member
    exact picked v listed a taken

def AnyPlane.ExactUnless (warned : Prop) : AnyPlane → Prop
  | .plane p => p.ExactUnless warned
  | .span s => s.ExactUnless warned

namespace Value.Usable

variable {v : Value} (usable : v.Usable warned)

include usable

theorem vector {u : Vector} (found : v.vector? = some u) : u.ExactUnless warned := by
  unfold Value.vector? at found
  split at found
  · cases found
    exact usable _ rfl
  · cases found

theorem line {l : Line} (found : v.line? = some l) : l.ExactUnless warned := by
  unfold Value.line? at found
  split at found
  · cases found
    exact usable _ rfl
  · cases found

theorem span {s : Span} (found : v.span? = some s) : s.ExactUnless warned := by
  unfold Value.span? at found
  split at found
  · cases found
    exact usable _ rfl
  · cases found

theorem anyPlane {p : AnyPlane} (found : v.anyPlane? = some p) : p.ExactUnless warned := by
  unfold Value.anyPlane? at found
  split at found
  · cases found
    exact usable _ rfl
  · cases found
    exact usable _ rfl
  · cases found

theorem element {e : Element} (found : v.element? = some e) : e.ExactUnless warned := by
  unfold Value.element? at found
  split at found
  · cases found
    exact usable _ rfl
  · cases found

end Value.Usable

theorem Value.exactUnless_vector {v : Vector} (exact : v.ExactUnless warned) :
    (ofVector v).ExactUnless warned :=
  exactUnless_element.mpr exact

theorem keeps_vectorFunction {name : String} {operands : List Vector} {m : Computation Value}
    (exact : ∀ v ∈ operands, v.ExactUnless warned) (unit : name ≠ "normalize")
    (computed : vectorFunction? name operands = some m) :
    m.Keeps warned (Value.ResultOf warned name) := by
  unfold vectorFunction? at computed
  split at computed
  · cases computed
    exact .bind (.any _) fun _ _ => .pure (.inr ⟨by decide, _, rfl⟩)
  · exact absurd rfl unit
  · simp only [List.forall_mem_cons] at exact
    cases computed
    exact .bind (.lift (exact.1.dot exact.2.1)) fun _ n =>
      .pure (.inl (Value.exactUnless_number.mpr n))
  · simp only [List.forall_mem_cons] at exact
    cases computed
    exact .bind (.lift (exact.1.cross exact.2.1)) fun _ v =>
      .pure (.inl (Value.exactUnless_vector v))
  · cases computed
    exact .bind (.any _) fun _ _ => .pure (.inr ⟨by decide, _, rfl⟩)
  · simp only [List.forall_mem_cons] at exact
    cases computed
    exact .bind (.lift (exact.1.between exact.2.1)) fun _ v =>
      .pure (.inl (Value.exactUnless_vector v))
  · cases computed

theorem AnyPlane.ExactUnless.toPlane {p : AnyPlane} (exact : p.ExactUnless warned) :
    Ensures p.toPlane (Plane.ExactUnless warned) := by
  cases p with
  | plane p => exact .pure exact
  | span s => exact Span.ExactUnless.toPlane exact

theorem AnyPlane.ExactUnless.toSpan {p : AnyPlane} (exact : p.ExactUnless warned) :
    p.toSpan.Keeps warned (Span.ExactUnless warned) := by
  cases p with
  | plane p => exact Plane.ExactUnless.toSpan exact
  | span s => exact .pure exact

theorem keeps_planeFunction {name : String} {p : AnyPlane} {m : Computation Value}
    (exact : p.ExactUnless warned) (computed : planeFunction? name p = some m) :
    m.Keeps warned (Value.ExactUnless warned) := by
  unfold planeFunction? at computed
  split at computed
  · cases computed
    exact exact.toSpan.bind fun s span =>
      .pure (Value.exactUnless_element (e := .span s) |>.mpr span)
  · cases computed
    refine .bind ?_ fun found (points : found.1.ExactUnless warned ∧
      found.2.1.ExactUnless warned ∧ found.2.2.ExactUnless warned) => .pure ?_
    · exact .bind (.lift exact.toPlane) fun q plane => plane.intercepts
    · intro n member
      simp only [Value.numbers, Value.numbersAll, List.append_nil, List.mem_append] at member
      rcases member with first | second | third
      · exact Value.exactUnless_vector points.1 n first
      · exact Value.exactUnless_vector points.2.1 n second
      · exact Value.exactUnless_vector points.2.2 n third
  · cases computed
    exact .bind (.lift exact.toPlane) fun q plane =>
      .pure (Value.exactUnless_element (e := .plane q) |>.mpr plane)
  · cases computed

theorem keeps_planeThrough {points : List Vector} {m : Computation Value}
    (exact : ∀ v ∈ points, v.ExactUnless warned) (computed : planeThrough? points = some m) :
    m.Keeps warned (Value.ExactUnless warned) := by
  unfold planeThrough? at computed
  split at computed
  · simp only [List.forall_mem_cons] at exact
    cases computed
    exact .bind (.lift (Plane.exactUnless_through exact.1 exact.2.1)) fun p plane =>
      .pure (Value.exactUnless_element (e := .plane p) |>.mpr plane)
  · simp only [List.forall_mem_cons] at exact
    cases computed
    exact .bind (.lift (Span.exactUnless_through exact.1 exact.2.1 exact.2.2.1)) fun s span =>
      .pure (Value.exactUnless_element (e := .span s) |>.mpr span)
  · cases computed

section Parts

variable {vs : List Value} (exact : ∀ v ∈ vs, v.ExactUnless warned)

include exact

/-- The numbers that a literal is put together from are exact if its parts are. -/
theorem exactUnless_scalars {found : List Scalar} (picked : vs.mapM Value.scalar? = some found) :
    ∀ n ∈ found, n.ExactUnless warned := by
  intro n member
  obtain ⟨v, listed, taken⟩ := mem_of_mapM picked member
  exact (exact v listed).scalar taken

theorem exactUnless_vectors {found : List Vector} (picked : vs.mapM Value.vector? = some found) :
    ∀ u ∈ found, u.ExactUnless warned := by
  intro u member
  obtain ⟨v, listed, taken⟩ := mem_of_mapM picked member
  exact (exact v listed).usable.vector taken

end Parts

/-- The construct of a literal puts its parts together. -/
theorem keeps_literal {c : Construct} {kind : Kind} (element : c.part = .element kind)
    {vs : List Value} (exact : ∀ v ∈ vs, v.ExactUnless warned) {m : Computation Value}
    (computed : c.computation? vs = some m) : m.Keeps warned (Value.ExactUnless warned) := by
  cases c with
  | vector =>
    obtain ⟨found, picked, built⟩ := Option.bind_eq_some_iff.mp computed
    have each := exactUnless_scalars exact picked
    split at built
    · cases built
      simp only [List.forall_mem_cons] at each
      exact .pure (Value.exactUnless_vector ⟨each.1, each.2.1, each.2.2.1⟩)
    · cases built
  | line =>
    obtain ⟨found, picked, built⟩ := Option.bind_eq_some_iff.mp computed
    have each := exactUnless_vectors exact picked
    split at built
    · rename_i base direction
      cases built
      simp only [List.forall_mem_cons] at each
      have line : (Element.line ⟨base, direction⟩).ExactUnless warned := ⟨each.1, each.2.1⟩
      exact .pure (Value.exactUnless_element.mpr line)
    · cases built
  | span =>
    obtain ⟨found, picked, built⟩ := Option.bind_eq_some_iff.mp computed
    have each := exactUnless_vectors exact picked
    split at built
    · rename_i base first second
      cases built
      simp only [List.forall_mem_cons] at each
      have span : (Element.span ⟨base, first, second⟩).ExactUnless warned :=
        ⟨each.1, each.2.1, each.2.2.1⟩
      exact .pure (Value.exactUnless_element.mpr span)
    · cases built
  | plane =>
    obtain ⟨found, picked, built⟩ := Option.bind_eq_some_iff.mp computed
    have each := exactUnless_scalars exact picked
    split at built
    · rename_i a b c d
      cases built
      simp only [List.forall_mem_cons] at each
      have plane : (Element.plane ⟨⟨a, b, c⟩, d⟩).ExactUnless warned :=
        ⟨⟨each.1, each.2.1, each.2.2.1⟩, each.2.2.2.1⟩
      exact .pure (Value.exactUnless_element.mpr plane)
    · cases built
  | _ => cases element

section

variable {operands : List Value} (usable : ∀ v ∈ operands, v.Usable warned) {m : Computation Value}

include usable

theorem keeps_vectorCall {name : String} (unit : name ≠ "normalize")
    (computed : Construct.vectorFunction.computation? (.text name :: operands) = some m) :
    m.Keeps warned (Value.ResultOf warned name) :=
  keeps_withOperands (fun v listed _ => (usable v listed).vector)
    (fun _ exact _ => keeps_vectorFunction exact unit) computed

theorem keeps_planeCall {name : String}
    (computed : Construct.planeFunction.computation? (.text name :: operands) = some m) :
    m.Keeps warned (Value.ExactUnless warned) := by
  obtain _ | ⟨operand, _ | _⟩ := operands
  · cases computed
  · refine keeps_withOperands (fun v listed _ => (usable v listed).anyPlane)
      (fun found exact m built => ?_) computed
    split at built
    · exact keeps_planeFunction (exact _ List.mem_cons_self) built
    · cases built
  · cases computed

theorem keeps_genericCall {name : String}
    (computed : Construct.generic.computation? (.text name :: operands) = some m) :
    m.Keeps warned (Value.ResultOf warned name) := by
  refine keeps_withOperands (fun v listed _ => (usable v listed).element)
    (fun found exact m built => ?_) computed
  split at built
  · simp only [List.forall_mem_cons] at exact
    cases built
    exact keeps_operate exact.1 exact.2.1
  · cases built

theorem keeps_lineThroughPoints
    (computed : Construct.lineThroughPoints.computation? operands = some m) :
    m.Keeps warned (Value.ExactUnless warned) := by
  refine keeps_withOperands (fun v listed _ => (usable v listed).vector)
    (fun found exact m built => ?_) computed
  split at built
  · simp only [List.forall_mem_cons] at exact
    cases built
    exact .bind (.lift (Line.exactUnless_through exact.1 exact.2.1)) fun l line =>
      .pure (Value.exactUnless_element (e := .line l) |>.mpr line)
  · cases built

theorem keeps_planeThroughPoints
    (computed : Construct.planeThroughPoints.computation? operands = some m) :
    m.Keeps warned (Value.ExactUnless warned) :=
  keeps_withOperands (fun v listed _ => (usable v listed).vector)
    (fun _ exact _ => keeps_planeThrough exact) computed

end

section

variable {operand : Value} (usable : operand.Usable warned) {m : Computation Value}

include usable

theorem keeps_pointOnLine {t : Value} (parameter : t.ExactUnless warned)
    (computed : Construct.pointOnLine.computation? [operand, t] = some m) :
    m.Keeps warned (Value.ExactUnless warned) := by
  cases t with
  | number t =>
    refine keeps_withOperands (List.forall_mem_singleton.mpr fun _ => usable.line)
      (fun found exact m built => ?_) computed
    split at built
    · cases built
      have line := exact _ List.mem_cons_self
      exact .bind (.lift (line.point (Value.exactUnless_number.mp parameter))) fun _ v =>
        .pure (Value.exactUnless_vector v)
    · cases built
  | _ => cases computed

theorem keeps_pointOnPlane {s t : Value} (first : s.ExactUnless warned)
    (second : t.ExactUnless warned)
    (computed : Construct.pointOnPlane.computation? [operand, s, t] = some m) :
    m.Keeps warned (Value.ExactUnless warned) := by
  cases s with
  | number s =>
    cases t with
    | number t =>
      refine keeps_withOperands (List.forall_mem_singleton.mpr fun _ => usable.span)
        (fun found exact m built => ?_) computed
      split at built
      · cases built
        have span := exact _ List.mem_cons_self
        exact .bind (.lift (span.point (Value.exactUnless_number.mp first)
          (Value.exactUnless_number.mp second))) fun _ v => .pure (Value.exactUnless_vector v)
      · cases built
    | _ => cases computed
  | _ => cases computed

end

end SolidGeometry
