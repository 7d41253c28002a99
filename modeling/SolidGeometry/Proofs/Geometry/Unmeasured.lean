import SolidGeometry.Proofs.Geometry.Propagation

namespace SolidGeometry

variable {warned : Prop}

theorem Vector.ExactUnless.projection {u v : Vector} (first : u.ExactUnless warned)
    (second : v.ExactUnless warned) : (u.projection v).Keeps warned (ExactUnless warned) := by
  refine .bind (.lift (first.dot second)) fun _ above => ?_
  refine .bind (.lift (second.dot second)) fun _ under => ?_
  exact (above.divide under).bind fun _ factor => .lift (second.scale factor)

/-- The common points of two elements, if there are any. -/
def CommonExactUnless (warned : Prop) (common : Option Element) : Prop :=
  ∀ e, common = some e → e.ExactUnless warned

theorem commonExactUnless_none : CommonExactUnless warned none := by
  intro e same
  cases same

theorem Element.ExactUnless.common {e : Element} (exact : e.ExactUnless warned) :
    CommonExactUnless warned (some e) := by
  rintro _ ⟨⟩
  exact exact

/-- Where parallel elements coincide, they are one of them. -/
theorem keeps_coincident {e : Element} (exact : e.ExactUnless warned) (b : Bool) :
    (pure (if b then some e else none) : Computation (Option Element)).Keeps warned
      (CommonExactUnless warned) := by
  cases b with
  | true => exact .pure exact.common
  | false => exact .pure commonExactUnless_none

theorem Line.ExactUnless.intersection {l m : Line} (first : l.ExactUnless warned)
    (second : m.ExactUnless warned) :
    (l.intersection m).Keeps warned (CommonExactUnless warned) := by
  unfold Line.intersection
  refine .bind (.lift (first.base.between second.base)) fun gap gap_exact => ?_
  refine .bind (.lift (first.direction.cross second.direction)) fun n n_exact => ?_
  split
  · exact .bind (.any _) fun _ _ => keeps_coincident (e := .line l) first _
  · refine .bind (.any _) fun _ _ => ?_
    split
    · exact .pure commonExactUnless_none
    · refine .bind (.lift (gap_exact.cross second.direction)) fun _ crossed => ?_
      refine .bind (.lift (crossed.dot n_exact)) fun _ above => ?_
      refine .bind (.lift (n_exact.dot n_exact)) fun _ under => ?_
      refine (above.divide under).bind fun _ t => ?_
      exact .bind (.lift (first.point t)) fun hit exact =>
        .pure (Element.ExactUnless.common (e := .vector hit) exact)

namespace Plane.ExactUnless

variable {p q : Plane}

theorem foot {point : Vector} (plane : p.ExactUnless warned) (place : point.ExactUnless warned) :
    (p.foot point).Keeps warned (Vector.ExactUnless warned) := by
  have normal := plane.normal
  refine .bind (.lift (normal.dot place)) fun _ height => ?_
  refine .bind (.lift (height.add plane.offset)) fun _ above => ?_
  refine .bind (.lift (normal.dot normal)) fun _ under => ?_
  refine (above.divide under).bind fun _ factor => ?_
  exact .bind (.lift (normal.scale factor)) fun _ along => .lift (place.sub along)

/-- The line of two planes. On each axis its base has one of two quotients or a zero. -/
theorem meet {r : Vector} (first : p.ExactUnless warned) (second : q.ExactUnless warned)
    (product : r.ExactUnless warned) (pivot : Axis) :
    (p.meet q r pivot).Keeps warned (Line.ExactUnless warned) := by
  have determinant := product.atAxis pivot
  refine .bind (.lift ((first.normal.atAxis _).mul second.offset)) fun _ left => ?_
  refine .bind (.lift ((second.normal.atAxis _).mul first.offset)) fun _ right => ?_
  refine .bind (.lift (left.sub right)) fun _ above => ?_
  refine (above.divide determinant).bind fun a a_exact => ?_
  refine .bind (.lift ((second.normal.atAxis _).mul first.offset)) fun _ left => ?_
  refine .bind (.lift ((first.normal.atAxis _).mul second.offset)) fun _ right => ?_
  refine .bind (.lift (left.sub right)) fun _ above => ?_
  refine (above.divide determinant).bind fun b b_exact => ?_
  have base : (Vector.ofAxes fun i =>
      if i = pivot.next then a else if i = pivot.next.next then b else 0).ExactUnless warned := by
    refine Vector.exactUnless_ofAxes fun i => ?_
    split
    · exact a_exact
    · split
      · exact b_exact
      · exact Scalar.exactUnless_int 0
  exact (product.divide determinant).bind fun _ direction => .pure ⟨base, direction⟩

theorem intersection (first : p.ExactUnless warned) (second : q.ExactUnless warned) :
    (p.intersection q).Keeps warned (CommonExactUnless warned) := by
  unfold Plane.intersection
  refine .bind (.lift (first.normal.cross second.normal)) fun r product => ?_
  split
  · exact .bind (.any _) fun _ _ => keeps_coincident (e := .plane p) first _
  · refine .bind (.any _) fun pivot _ => ?_
    exact (first.meet second product pivot).bind fun l exact =>
      .pure (Element.ExactUnless.common (e := .line l) exact)

theorem intersectionWithLine {l : Line} (plane : p.ExactUnless warned)
    (line : l.ExactUnless warned) :
    (p.intersectionWithLine l).Keeps warned (CommonExactUnless warned) := by
  unfold Plane.intersectionWithLine
  refine .bind (.lift (plane.normal.dot line.direction)) fun _ slope => ?_
  refine .bind (.lift (plane.normal.dot line.base)) fun _ level => ?_
  refine .bind (.lift (level.add plane.offset)) fun _ height => ?_
  dsimp only
  split
  · exact keeps_coincident (e := .line l) line _
  · refine (height.neg.divide slope).bind fun _ t => ?_
    exact .bind (.lift (line.point t)) fun hit exact =>
      .pure (Element.ExactUnless.common (e := .vector hit) exact)

theorem projectionOfLine {l : Line} (plane : p.ExactUnless warned) (line : l.ExactUnless warned) :
    (p.projectionOfLine l).Keeps warned (Element.ExactUnless warned) := by
  have normal := plane.normal
  unfold Plane.projectionOfLine
  dsimp only
  refine .bind (.lift (line.direction.dot normal)) fun _ above => ?_
  refine .bind (.lift (normal.dot normal)) fun _ under => ?_
  refine (above.divide under).bind fun _ factor => ?_
  refine .bind (.lift (normal.scale factor)) fun _ along => ?_
  refine .bind (.lift (line.direction.sub along)) fun direction flat => ?_
  have result {anchor : Vector} (place : anchor.ExactUnless warned) :
      (if direction.isZero then Element.vector anchor
        else .line ⟨anchor, direction⟩).ExactUnless warned := by
    split
    · exact place
    · exact ⟨place, flat⟩
  refine (plane.intersectionWithLine line).bind fun common met => ?_
  split
  · rename_i hit
    exact .pure (result (met _ rfl))
  · exact (plane.foot line.base).bind fun _ place => .pure (result place)

end Plane.ExactUnless

theorem Element.ExactUnless.intersection {a b : Element} (first : a.ExactUnless warned)
    (second : b.ExactUnless warned) {m : Computation (Option Element)}
    (found : a.intersection? b = some m) : m.Keeps warned (CommonExactUnless warned) := by
  unfold Element.intersection? at found
  split at found
  · cases found
    exact Line.ExactUnless.intersection first second
  · cases found
    exact Plane.ExactUnless.intersection first second
  · cases found
    exact Plane.ExactUnless.intersectionWithLine second first
  · cases found

theorem Element.ExactUnless.projection {a b : Element} (first : a.ExactUnless warned)
    (second : b.ExactUnless warned) {m : Computation Element}
    (found : a.projection? b = some m) : m.Keeps warned (Element.ExactUnless warned) := by
  unfold Element.projection? at found
  split at found
  · cases found
    exact (Vector.ExactUnless.projection first second).bind fun _ exact => .pure exact
  · cases found
    exact Plane.ExactUnless.projectionOfLine second first
  · cases found
    exact (Plane.ExactUnless.foot first second).bind fun _ exact => .pure exact
  · cases found

/-- A value of numbers that are exact unless there was a warning. -/
def Value.ExactUnless (warned : Prop) (v : Value) : Prop := ∀ n ∈ v.numbers, n.ExactUnless warned

theorem Value.exactUnless_element {e : Element} :
    (Value.element e).ExactUnless warned ↔ e.ExactUnless warned :=
  Element.exactUnless_iff.symm

theorem Value.exactUnless_number {n : Scalar} :
    (Value.number n).ExactUnless warned ↔ n.ExactUnless warned := by
  simp [ExactUnless, numbers]

theorem Value.exactUnless_of_numbers {v : Value} (none : v.numbers = []) :
    v.ExactUnless warned := by
  intro n member
  rw [none] at member
  cases member

/-- The functions that measure: their results are rounded also for exact operands. -/
def measuringNames : List String := ["length", "area", "angle", "distance"]

/-- A value of a function: exact, or measured. -/
def Value.ResultOf (warned : Prop) (name : String) (v : Value) : Prop :=
  v.ExactUnless warned ∨ name ∈ measuringNames ∧ ∃ n, v = .number n

theorem Operation.keeps_method {o : Operation} {a b : Element} (first : a.ExactUnless warned)
    (second : b.ExactUnless warned) {m : Computation Value} (found : o.method? a b = some m) :
    m.Keeps warned (Value.ResultOf warned o.label) := by
  have flags (b : Bool) : (Value.flag b).ResultOf warned o.label :=
    .inl (Value.exactUnless_of_numbers rfl)
  cases o with
  | angle =>
    obtain ⟨measured, -, rfl⟩ := Option.map_eq_some_iff.mp found
    exact .bind (.any _) fun x _ => .pure (.inr ⟨by decide, _, rfl⟩)
  | parallel =>
    obtain ⟨measured, -, rfl⟩ := Option.map_eq_some_iff.mp found
    exact .bind (.any _) fun x _ => .pure (flags _)
  | perpendicular =>
    obtain ⟨measured, -, rfl⟩ := Option.map_eq_some_iff.mp found
    exact .bind (.any _) fun x _ => .pure (flags _)
  | distance =>
    obtain ⟨measured, -, rfl⟩ := Option.map_eq_some_iff.mp found
    exact .bind (.any _) fun x _ => .pure (.inr ⟨by decide, _, rfl⟩)
  | on =>
    obtain ⟨measured, -, rfl⟩ := Option.map_eq_some_iff.mp found
    exact .bind (.any _) fun x _ => .pure (flags _)
  | intersection =>
    obtain ⟨common, named, rfl⟩ := Option.map_eq_some_iff.mp found
    refine (first.intersection second named).bind fun common exact => .pure (.inl ?_)
    cases common with
    | none => exact Value.exactUnless_of_numbers rfl
    | some e => exact Value.exactUnless_element.mpr (exact e rfl)
  | projection =>
    obtain ⟨image, named, rfl⟩ := Option.map_eq_some_iff.mp found
    exact (first.projection second named).bind fun e exact =>
      .pure (.inl (Value.exactUnless_element.mpr exact))
  | skewed =>
    unfold Operation.method? at found
    dsimp only at found
    split at found
    · cases found
      exact .bind (.any _) fun _ _ => .pure (flags _)
    · cases found

theorem Operation.label_of_named {name : String} {o : Operation} (named : ofLabel? name = some o) :
    o.label = name := by
  simpa using List.find?_some named

theorem keeps_runMethod {name : String} {a b : Element} (first : a.ExactUnless warned)
    (second : b.ExactUnless warned) :
    (runMethod name a b).Keeps warned (Value.ResultOf warned name) := by
  unfold runMethod
  split
  · exact .fail _
  · rename_i m found
    obtain ⟨o, named, method⟩ := Option.bind_eq_some_iff.mp found
    refine .bind (.any _) fun _ _ => .bind (.any _) fun _ _ => .bind (.any _) fun _ _ => ?_
    rw [← Operation.label_of_named named]
    exact Operation.keeps_method first second method

theorem Operands.ensures_ofElements {a b : Element} (first : a.ExactUnless warned)
    (second : b.ExactUnless warned) : Ensures (Operands.ofElements a b) fun o =>
      o.first.ExactUnless warned ∧ o.second.ExactUnless warned := by
  refine first.toEquation.bind fun a first => second.toEquation.bind fun b second => .pure ?_
  unfold Operands.inOrder
  split
  · exact ⟨second, first⟩
  · exact ⟨first, second⟩

theorem keeps_operate {name : String} {a b : Element} (first : a.ExactUnless warned)
    (second : b.ExactUnless warned) :
    (operate name a b).Keeps warned (Value.ResultOf warned name) := by
  refine .bind (.lift (Operands.ensures_ofElements first second)) fun operands ordered => ?_
  dsimp only
  split
  · exact .bind (.any _) fun _ _ => keeps_runMethod ordered.1 ordered.2
  · exact keeps_runMethod ordered.1 ordered.2

end SolidGeometry
