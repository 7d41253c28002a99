import SolidGeometry.Display
import SolidGeometry.Proofs.Geometry.Domains
import SolidGeometry.Proofs.Number.Displayed

namespace SolidGeometry
open Number

/-- A number that can be written as a result: an integer within the limit on digits, a fraction
within the range of doubles, or any float. -/
def Scalar.Writable : Scalar → Prop
  | int n => n.natAbs < Nat.pow 10 digitLimit
  | ratio q => (nearest? q).isSome
  | _ => True

def Element.numbers : Element → List Scalar
  | .vector v => v.toList
  | .line l => l.base.toList ++ l.direction.toList
  | .plane p => p.normal.toList ++ [p.offset]
  | .span s => s.base.toList ++ s.first.toList ++ s.second.toList

mutual

def Value.numbers : Value → List Scalar
  | .number n => [n]
  | .element e => e.numbers
  | .tuple items => Value.numbersAll items
  | _ => []

def Value.numbersAll : List Value → List Scalar
  | [] => []
  | v :: vs => v.numbers ++ Value.numbersAll vs

end

/-- A value that can be written as a result. -/
def Value.Writable (v : Value) : Prop := ∀ n ∈ v.numbers, n.Writable

/-- A result is there. -/
def Succeeds {α : Type} (r : Checked α) : Prop := ∃ a, r = .ok a

section

variable {α β : Type} {m : Checked α}

theorem succeeds_bind {f : α → Checked β} {p : Prop} (rest : ∀ a, Succeeds (f a) ↔ p) :
    Succeeds (m >>= f) ↔ Succeeds m ∧ p := by
  cases m with
  | ok a => simp [Succeeds, bind, Except.bind, ← rest a]
  | error e => simp [Succeeds, bind, Except.bind]

theorem succeeds_pure (a : α) : Succeeds (pure a) ↔ True := iff_true_intro ⟨a, rfl⟩

end

section

variable {style : NumberStyle} (few : style.places ≤ placesLimit)

include few

theorem Scalar.succeeds_render (n : Scalar) : Succeeds (n.render style) ↔ n.Writable := by
  have shown (x : Float) : Succeeds (displayFloat style.places style.grouping x) :=
    exists_displayFloat few style.grouping x
  unfold Scalar.render display Writable
  cases n with
  | int n =>
    dsimp only
    unfold writeInt
    split
    · rename_i small
      exact iff_of_true ⟨_, rfl⟩ small
    · rename_i large
      refine iff_of_false ?_ large
      rintro ⟨text, written⟩
      cases written
  | ratio q =>
    rw [succeeds_bind fun x => iff_true_intro (shown x), and_true, toFloat]
    cases found : nearest? q with
    | none => simp [Succeeds, found]
    | some x => simp [Succeeds, found]
  | float x => exact iff_of_true (shown x) trivial
  | undefined => exact iff_of_true (shown notANumber) trivial

theorem Vector.succeeds_render (v : Vector) :
    Succeeds (v.render style) ↔ ∀ n ∈ v.toList, n.Writable := by
  unfold Vector.render
  rw [succeeds_bind fun _ => succeeds_bind fun _ => succeeds_bind fun _ => succeeds_pure _]
  simp [Scalar.succeeds_render few, toList]

theorem Element.succeeds_render (e : Element) :
    Succeeds (e.render style) ↔ ∀ n ∈ e.numbers, n.Writable := by
  cases e with
  | vector v => exact v.succeeds_render few
  | line l =>
    unfold Element.render Line.render
    rw [succeeds_bind fun _ => succeeds_bind fun _ => succeeds_pure _]
    simp [Vector.succeeds_render few, numbers, or_imp, forall_and]
  | plane p =>
    unfold Element.render Plane.render
    rw [succeeds_bind fun _ => succeeds_bind fun _ => succeeds_bind fun _ => succeeds_bind fun _ =>
      succeeds_pure _]
    simp [Scalar.succeeds_render few, numbers, Vector.toList]
  | span s =>
    unfold Element.render Span.render
    rw [succeeds_bind fun _ => succeeds_bind fun _ => succeeds_bind fun _ => succeeds_pure _]
    simp [Vector.succeeds_render few, numbers, or_imp, forall_and]

end

mutual

/-- A value is written if all its numbers can be. -/
theorem Value.succeeds_render {style : NumberStyle} (few : style.places ≤ placesLimit) :
    (v : Value) → (Succeeds (v.render style) ↔ v.Writable)
  | .none => iff_of_true ⟨_, rfl⟩ (by simp [Writable, numbers])
  | .flag b => iff_of_true ⟨_, rfl⟩ (by simp [Writable, numbers])
  | .text s => iff_of_true ⟨_, rfl⟩ (by simp [Writable, numbers])
  | .number n => by
    rw [Value.render, Scalar.succeeds_render few]
    simp [Writable, numbers]
  | .element e => by
    rw [Value.render, Element.succeeds_render few]
    simp [Writable, numbers]
  | .tuple items => by
    rw [Value.render, succeeds_bind fun _ => succeeds_pure _, Value.succeeds_renderAll few items]
    simp [Writable, numbers]

theorem Value.succeeds_renderAll {style : NumberStyle} (few : style.places ≤ placesLimit) :
    (items : List Value) →
      (Succeeds (Value.renderAll style items) ↔ ∀ n ∈ Value.numbersAll items, n.Writable)
  | [] => iff_of_true ⟨_, rfl⟩ (by simp [numbersAll])
  | v :: vs => by
    rw [Value.renderAll, succeeds_bind fun _ => succeeds_bind fun _ => succeeds_pure _,
      Value.succeeds_render few v, Value.succeeds_renderAll few vs]
    simp [Writable, numbersAll, or_imp, forall_and]

end

end SolidGeometry
