import SolidGeometry.Operation.Methods
import SolidGeometry.Proofs.Evaluation.Rendering
import SolidGeometry.Proofs.Geometry.Exact
import SolidGeometry.Proofs.Number.Undefined

/-! Numbers that are exact unless something was divided by zero. All operations but those that
measure keep them so: they never round, and what is not a number comes from a division by zero that
has left its warning, however far it has been carried. -/
namespace SolidGeometry
open Number

/-- Whether a computation warns of a division by zero. -/
def Noted.Warned {ε α : Type} (m : Noted ε α) : Prop := ∃ w ∈ m.warnings, w.code = .division

/-- All results of a step have a property. -/
def Ensures {ε α : Type} (r : Except ε α) (P : α → Prop) : Prop := ∀ a, r = .ok a → P a

/-- All results of a computation have a property, provided that `warned` holds if the computation
warns of a division by zero. -/
def Noted.Keeps {ε α : Type} (warned : Prop) (m : Noted ε α) (P : α → Prop) : Prop :=
  (m.Warned → warned) → Ensures m.result P

section

variable {ε δ α β : Type} {warned : Prop} {P : α → Prop} {Q : β → Prop}

theorem Ensures.pure {a : α} (holds : P a) : Ensures (pure a : Except ε α) P := by
  rintro _ ⟨⟩
  exact holds

theorem Ensures.bind {r : Except ε α} {f : α → Except ε β} (first : Ensures r P)
    (next : ∀ a, P a → Ensures (f a) Q) : Ensures (r >>= f) Q := by
  intro b returns
  cases r with
  | error e => cases returns
  | ok a => exact next a (first a rfl) b returns

theorem Ensures.any (r : Except ε α) : Ensures r fun _ => True := fun _ _ => trivial

namespace Noted.Keeps

variable {m : Noted ε α} {f : α → Noted ε β}

theorem pure {a : α} (holds : P a) : Keeps warned (pure a : Noted ε α) P := by
  rintro - _ ⟨⟩
  exact holds

theorem fail (e : ε) : Keeps warned (Noted.fail e : Noted ε α) P := nofun

theorem lift {r : Except ε α} (ensured : Ensures r P) : Keeps warned (liftM r : Noted ε α) P :=
  fun _ => ensured

theorem any (m : Noted ε α) : Keeps warned m fun _ => True := fun _ => .any _

theorem imp {R : α → Prop} (kept : Keeps warned m P) (weaker : ∀ a, P a → R a) :
    Keeps warned m R :=
  fun covered a returns => weaker a (kept covered a returns)

theorem bind (first : Keeps warned m P) (next : ∀ a, P a → Keeps warned (f a) Q) :
    Keeps warned (m >>= f) Q := by
  intro covered b returns
  obtain ⟨a, done, rest⟩ := Noted.result_bind.mp returns
  rw [Warned, warnings_bind done] at covered
  have front : m.Warned → warned := by
    rintro ⟨w, member, code⟩
    exact covered ⟨w, List.mem_append_left _ member, code⟩
  have back : (f a).Warned → warned := by
    rintro ⟨w, member, code⟩
    exact covered ⟨w, List.mem_append_right _ member, code⟩
  exact next a (first front a done) back b rest

theorem mapError (g : ε → δ) (kept : Keeps warned m P) : Keeps warned (m.mapError g) P := by
  intro covered a returns
  refine kept covered a ?_
  cases done : m.result with
  | ok b => simpa [Noted.mapError, done, Except.mapError] using returns
  | error e => simp [Noted.mapError, done, Except.mapError] at returns

/-- Behind the warning it is known that something was divided by zero. -/
theorem warn (detail : String) :
    Keeps warned (Noted.warn .division detail : Noted ε Unit) fun _ => warned :=
  fun covered _ _ => covered ⟨_, List.mem_singleton_self _, rfl⟩

end Noted.Keeps

end

variable (warned : Prop)

/-- A number that is exact, or is none, and then there was a warning. -/
def Scalar.ExactUnless (a : Scalar) : Prop :=
  (∃ q, a.rational? = some q) ∨ a.isNaN = true ∧ warned

variable {warned}

namespace Scalar

variable {a b : Scalar}

theorem exactUnless_int (n : Int) : (int n).ExactUnless warned := .inl ⟨_, rfl⟩

theorem isNaN_float {x : Float} : (float x).isNaN = Number.isNaN x := by
  rw [isNaN, place?, Number.isNaN]
  cases Binary64.ofFloat x with
  | finite negative mantissa exponent => rfl
  | infinite negative => cases negative <;> rfl
  | nan => rfl

theorem not_isNaN_of_exact {q : Rat} (exact : a.rational? = some q) : a.isNaN = false := by
  rw [isNaN, place?_of_exact exact]
  rfl

/-- What is not a number is none as a float. -/
theorem isNaN_toFloat {x : Float} (none : a.isNaN = true) (converts : a.toFloat = .ok x) :
    Number.isNaN x = true := by
  cases a with
  | int n => cases none
  | ratio q => cases none
  | float y =>
    cases converts
    rw [← isNaN_float, none]
  | undefined =>
    cases converts
    exact isNaN_notANumber

/-- Arithmetic on floats begins with what is not a number, or both operands are exact. -/
theorem ExactUnless.cases (left : a.ExactUnless warned) (right : b.ExactUnless warned) :
    (∃ p q, a.rational? = some p ∧ b.rational? = some q) ∨
      (a.isNaN = true ∨ b.isNaN = true) ∧ warned := by
  rcases left with ⟨p, exact⟩ | ⟨none, known⟩
  · rcases right with ⟨q, other⟩ | ⟨none, known⟩
    · exact .inl ⟨p, q, exact, other⟩
    · exact .inr ⟨.inr none, known⟩
  · exact .inr ⟨.inl none, known⟩

theorem exactUnless_combine {onInt : Int → Int → Int} {onRat : Rat → Rat → Rat}
    {onFloat : Float → Float → Float} (propagates : Propagates onFloat)
    (left : a.ExactUnless warned) (right : b.ExactUnless warned) :
    Ensures (combine onInt onRat onFloat a b) (ExactUnless warned) := by
  intro c returns
  rcases left.cases right with ⟨p, q, exact, other⟩ | ⟨none, known⟩
  · -- Exact operands meet in the integers or in the fractions, never in the floats.
    cases a <;> cases exact <;> cases b <;> cases other <;> cases returns <;> exact .inl ⟨_, rfl⟩
  · rcases combine_cases returns with ⟨m, n, -, -, rfl⟩ | ⟨p, q, -, -, rfl⟩ |
      ⟨x, y, first, second, rfl⟩
    · exact exactUnless_int _
    · exact .inl ⟨_, rfl⟩
    · refine .inr ⟨?_, known⟩
      rw [isNaN_float]
      exact propagates x y (none.imp (isNaN_toFloat · first) (isNaN_toFloat · second))

namespace ExactUnless

theorem add (left : a.ExactUnless warned) (right : b.ExactUnless warned) :
    Ensures (a.add b) (ExactUnless warned) :=
  exactUnless_combine propagates_add left right

theorem sub (left : a.ExactUnless warned) (right : b.ExactUnless warned) :
    Ensures (a.sub b) (ExactUnless warned) :=
  exactUnless_combine propagates_sub left right

theorem mul (left : a.ExactUnless warned) (right : b.ExactUnless warned) :
    Ensures (a.mul b) (ExactUnless warned) :=
  exactUnless_combine propagates_mul left right

theorem neg (exact : a.ExactUnless warned) : a.neg.ExactUnless warned := by
  rcases exact with ⟨q, exact⟩ | ⟨none, known⟩
  · exact .inl ⟨_, neg_exact exact⟩
  · refine .inr ⟨?_, known⟩
    cases a with
    | int n => cases none
    | ratio q => cases none
    | float x =>
      rw [neg, isNaN_float]
      exact isNaN_neg (isNaN_float.symm.trans none)
    | undefined => exact isNaN_float.trans isNaN_notANumber

theorem floatQuotient (none : a.isNaN = true ∨ b.isNaN = true) :
    Ensures (a.floatQuotient b) fun x => Number.isNaN x = true := by
  intro z returns
  obtain ⟨x, first, rest⟩ := Checked.bind_eq_ok.mp returns
  obtain ⟨y, second, last⟩ := Checked.bind_eq_ok.mp rest
  split at last
  · cases last
  · cases last
    exact propagates_div x y (none.imp (isNaN_toFloat · first) (isNaN_toFloat · second))

/-- A quotient is exact, or what is no number has been divided, or the division has warned. -/
theorem divide (left : a.ExactUnless warned) (right : b.ExactUnless warned) :
    (a.divide b).Keeps warned (ExactUnless warned) := by
  unfold Scalar.divide
  split
  · refine .bind (.any _) fun above _ => .bind (.any _) fun under _ => ?_
    exact .bind (.warn _) fun _ known => .pure (.inr ⟨rfl, known⟩)
  · split
    · exact .pure (.inl ⟨_, rational?_ofRat _⟩)
    · rename_i rounded
      have none : (a.isNaN = true ∨ b.isNaN = true) ∧ warned := by
        rcases left.cases right with ⟨p, q, exact, other⟩ | none
        · exact absurd other (rounded p q exact)
        · exact none
      refine .bind (.lift (floatQuotient none.1)) fun x undefined => ?_
      exact .pure (.inr ⟨isNaN_float.trans undefined, none.2⟩)

end ExactUnless

end Scalar

section

variable {m n : Checked Scalar}

theorem Ensures.add (left : Ensures m (Scalar.ExactUnless warned))
    (right : Ensures n (Scalar.ExactUnless warned)) :
    Ensures (m + n) (Scalar.ExactUnless warned) :=
  left.bind fun _ first => right.bind fun _ second => first.add second

theorem Ensures.sub (left : Ensures m (Scalar.ExactUnless warned))
    (right : Ensures n (Scalar.ExactUnless warned)) :
    Ensures (m - n) (Scalar.ExactUnless warned) :=
  left.bind fun _ first => right.bind fun _ second => first.sub second

end

variable (warned) in
/-- A vector of components that are exact unless there was a warning. -/
structure Vector.ExactUnless (v : Vector) : Prop where
  x : v.x.ExactUnless warned
  y : v.y.ExactUnless warned
  z : v.z.ExactUnless warned

theorem Vector.exactUnless_iff {v : Vector} :
    v.ExactUnless warned ↔ ∀ n ∈ v.toList, n.ExactUnless warned := by
  simp only [toList, List.forall_mem_cons, List.not_mem_nil, false_implies, implies_true, and_true]
  exact ⟨fun exact => ⟨exact.x, exact.y, exact.z⟩, fun each => ⟨each.1, each.2.1, each.2.2⟩⟩

theorem Vector.exactUnless_ofChecked {x y z : Checked Scalar}
    (first : Ensures x (Scalar.ExactUnless warned))
    (second : Ensures y (Scalar.ExactUnless warned))
    (third : Ensures z (Scalar.ExactUnless warned)) :
    Ensures (ofChecked x y z) (ExactUnless warned) :=
  first.bind fun _ x => second.bind fun _ y => third.bind fun _ z => .pure ⟨x, y, z⟩

theorem Vector.exactUnless_ofAxes {f : Axis → Scalar} (each : ∀ i, (f i).ExactUnless warned) :
    (ofAxes f).ExactUnless warned :=
  ⟨each .x, each .y, each .z⟩

namespace Vector.ExactUnless

variable {u v : Vector} {a : Scalar}

theorem atAxis (exact : v.ExactUnless warned) (i : Axis) : (v.at i).ExactUnless warned := by
  cases i with
  | x => exact exact.x
  | y => exact exact.y
  | z => exact exact.z

theorem add (left : u.ExactUnless warned) (right : v.ExactUnless warned) :
    Ensures (u.add v) (ExactUnless warned) :=
  exactUnless_ofChecked (left.x.add right.x) (left.y.add right.y) (left.z.add right.z)

theorem sub (left : u.ExactUnless warned) (right : v.ExactUnless warned) :
    Ensures (u.sub v) (ExactUnless warned) :=
  exactUnless_ofChecked (left.x.sub right.x) (left.y.sub right.y) (left.z.sub right.z)

theorem between (left : u.ExactUnless warned) (right : v.ExactUnless warned) :
    Ensures (u.between v) (ExactUnless warned) :=
  right.sub left

theorem scale (exact : v.ExactUnless warned) (factor : a.ExactUnless warned) :
    Ensures (v.scale a) (ExactUnless warned) :=
  exactUnless_ofChecked (exact.x.mul factor) (exact.y.mul factor) (exact.z.mul factor)

theorem dot (left : u.ExactUnless warned) (right : v.ExactUnless warned) :
    Ensures (u.dot v) (Scalar.ExactUnless warned) :=
  ((left.x.mul right.x).add (left.y.mul right.y)).add (left.z.mul right.z)

theorem cross (left : u.ExactUnless warned) (right : v.ExactUnless warned) :
    Ensures (u.cross v) (ExactUnless warned) :=
  exactUnless_ofChecked (.sub (left.y.mul right.z) (left.z.mul right.y))
    (.sub (left.z.mul right.x) (left.x.mul right.z))
    (.sub (left.x.mul right.y) (left.y.mul right.x))

theorem divide (exact : v.ExactUnless warned) (divisor : a.ExactUnless warned) :
    (v.divide a).Keeps warned (ExactUnless warned) :=
  (exact.x.divide divisor).bind fun _ x => (exact.y.divide divisor).bind fun _ y =>
    (exact.z.divide divisor).bind fun _ z => .pure ⟨x, y, z⟩

end Vector.ExactUnless

section

variable (warned)

structure Line.ExactUnless (l : Line) : Prop where
  base : l.base.ExactUnless warned
  direction : l.direction.ExactUnless warned

structure Plane.ExactUnless (p : Plane) : Prop where
  normal : p.normal.ExactUnless warned
  offset : p.offset.ExactUnless warned

structure Span.ExactUnless (s : Span) : Prop where
  base : s.base.ExactUnless warned
  first : s.first.ExactUnless warned
  second : s.second.ExactUnless warned

/-- An element of numbers that are exact unless there was a warning. -/
def Element.ExactUnless : Element → Prop
  | .vector v => v.ExactUnless warned
  | .line l => l.ExactUnless warned
  | .plane p => p.ExactUnless warned
  | .span s => s.ExactUnless warned

end

theorem Element.exactUnless_iff {e : Element} :
    e.ExactUnless warned ↔ ∀ n ∈ e.numbers, n.ExactUnless warned := by
  cases e with
  | vector v => exact Vector.exactUnless_iff
  | line l =>
    rw [numbers, List.forall_mem_append, ← Vector.exactUnless_iff, ← Vector.exactUnless_iff]
    exact ⟨fun exact => ⟨exact.base, exact.direction⟩, fun each => ⟨each.1, each.2⟩⟩
  | plane p =>
    rw [numbers, List.forall_mem_append, ← Vector.exactUnless_iff, List.forall_mem_singleton]
    exact ⟨fun exact => ⟨exact.normal, exact.offset⟩, fun each => ⟨each.1, each.2⟩⟩
  | span s =>
    rw [numbers, List.forall_mem_append, List.forall_mem_append, ← Vector.exactUnless_iff,
      ← Vector.exactUnless_iff, ← Vector.exactUnless_iff]
    exact ⟨fun exact => ⟨⟨exact.base, exact.first⟩, exact.second⟩,
      fun each => ⟨each.1.1, each.1.2, each.2⟩⟩

theorem Line.ExactUnless.point {l : Line} {t : Scalar} (line : l.ExactUnless warned)
    (parameter : t.ExactUnless warned) : Ensures (l.point t) (Vector.ExactUnless warned) :=
  (line.direction.scale parameter).bind fun _ moved => line.base.add moved

theorem Line.exactUnless_through {p q : Vector} (first : p.ExactUnless warned)
    (second : q.ExactUnless warned) : Ensures (Line.through p q) (Line.ExactUnless warned) :=
  (first.between second).bind fun _ direction => .pure ⟨first, direction⟩

namespace Span

variable {p : Span} {s t : Scalar} {a b c : Vector}

theorem ExactUnless.point (span : p.ExactUnless warned) (first : s.ExactUnless warned)
    (second : t.ExactUnless warned) : Ensures (p.point s t) (Vector.ExactUnless warned) :=
  (span.first.scale first).bind fun _ along => (span.base.add along).bind fun _ middle =>
    (span.second.scale second).bind fun _ across => middle.add across

theorem exactUnless_through (first : a.ExactUnless warned) (second : b.ExactUnless warned)
    (third : c.ExactUnless warned) : Ensures (Span.through a b c) (ExactUnless warned) :=
  (first.between second).bind fun _ along => (first.between third).bind fun _ across =>
    .pure ⟨first, along, across⟩

theorem ExactUnless.toPlane (span : p.ExactUnless warned) :
    Ensures p.toPlane (Plane.ExactUnless warned) :=
  (span.first.cross span.second).bind fun _ normal => (span.base.dot normal).bind fun _ height =>
    .pure ⟨normal, height.neg⟩

end Span

namespace Plane

variable {p q : Plane}

theorem exactUnless_through {normal point : Vector} (direction : normal.ExactUnless warned)
    (place : point.ExactUnless warned) :
    Ensures (Plane.through normal point) (ExactUnless warned) :=
  (place.dot direction).bind fun _ height => .pure ⟨direction, height.neg⟩

namespace ExactUnless

theorem intercepts (plane : p.ExactUnless warned) :
    p.intercepts.Keeps warned fun found => found.1.ExactUnless warned ∧
      found.2.1.ExactUnless warned ∧ found.2.2.ExactUnless warned := by
  have zero : (0 : Scalar).ExactUnless warned := Scalar.exactUnless_int 0
  refine (plane.offset.neg.divide plane.normal.x).bind fun _ x => ?_
  refine (plane.offset.neg.divide plane.normal.y).bind fun _ y => ?_
  refine (plane.offset.neg.divide plane.normal.z).bind fun _ z => ?_
  exact .pure ⟨⟨x, zero, zero⟩, ⟨zero, y, zero⟩, ⟨zero, zero, z⟩⟩

theorem toSpan (plane : p.ExactUnless warned) :
    p.toSpan.Keeps warned (Span.ExactUnless warned) := by
  have normal := plane.normal
  unfold Plane.toSpan
  dsimp only
  split
  · refine plane.intercepts.bind fun found ⟨x, y, z⟩ => ?_
    refine .bind (.lift (x.between y)) fun _ first => ?_
    exact .bind (.lift (x.between z)) fun _ second => .pure ⟨x, first, second⟩
  · refine .bind (.lift (normal.dot normal)) fun _ square => ?_
    refine (plane.offset.neg.divide square).bind fun _ factor => ?_
    refine .bind (.lift (normal.scale factor)) fun _ base => ?_
    have helper : (Vector.ofAxes fun i =>
        if i = p.normal.leastAxis then (1 : Scalar) else 0).ExactUnless warned := by
      refine Vector.exactUnless_ofAxes fun i => ?_
      split
      · exact Scalar.exactUnless_int 1
      · exact Scalar.exactUnless_int 0
    refine .bind (.lift (normal.cross helper)) fun _ first => ?_
    exact .bind (.lift (normal.cross first)) fun _ second => .pure ⟨base, first, second⟩

end ExactUnless

end Plane

theorem Element.ExactUnless.toEquation {e : Element} (exact : e.ExactUnless warned) :
    Ensures e.toEquation (Element.ExactUnless warned) := by
  cases e with
  | span s => exact (Span.ExactUnless.toPlane exact).bind fun _ plane => .pure plane
  | vector v => exact .pure exact
  | line l => exact .pure exact
  | plane p => exact .pure exact

end SolidGeometry
