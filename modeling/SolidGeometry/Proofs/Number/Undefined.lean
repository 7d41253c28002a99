import SolidGeometry.Proofs.Number.Signs

namespace SolidGeometry.Number
open Float.Model Float.Model.UnpackedFloat

variable {x y : Float}

theorem isNaN_iff_unpack : isNaN x = true ↔ x.toModel.unpack = .notANumber := by
  rw [isNaN, beq_iff_eq, Binary64.ofFloat_eq_ofUnpacked]
  cases x.toModel.unpack <;> simp [Binary64.ofUnpacked]

/-- An operation that makes no number of what is not a number. -/
def Propagates (op : Float → Float → Float) : Prop :=
  ∀ x y, isNaN x = true ∨ isNaN y = true → isNaN (op x y) = true

/-- An operation propagates what is not a number if it does so on unpacked doubles. -/
theorem propagates_of_unpacked {op : Float → Float → Float}
    {unpacked : UnpackedFloat → UnpackedFloat → UnpackedFloat}
    (computed : ∀ x y, (op x y).toModel =
      Float.Model.pack (unpacked x.toModel.unpack y.toModel.unpack))
    (left : ∀ g, unpacked .notANumber g = .notANumber)
    (right : ∀ f, unpacked f .notANumber = .notANumber) : Propagates op := by
  intro x y none
  have lost : unpacked x.toModel.unpack y.toModel.unpack = .notANumber := by
    rcases none with first | second
    · rw [isNaN_iff_unpack.mp first, left]
    · rw [isNaN_iff_unpack.mp second, right]
  rw [isNaN_iff_unpack, computed, lost]
  rfl

theorem propagates_add : Propagates (· + ·) :=
  propagates_of_unpacked (fun _ _ => rfl) (fun g => by cases g <;> rfl)
    (fun f => by cases f <;> rfl)

theorem propagates_sub : Propagates (· - ·) :=
  propagates_of_unpacked (fun _ _ => rfl) (fun g => by cases g <;> rfl)
    (fun f => by cases f <;> rfl)

theorem propagates_mul : Propagates (· * ·) :=
  propagates_of_unpacked (fun _ _ => rfl) (fun g => by cases g <;> rfl)
    (fun f => by cases f <;> rfl)

theorem propagates_div : Propagates (· / ·) :=
  propagates_of_unpacked (fun _ _ => rfl) (fun g => by cases g <;> rfl)
    (fun f => by cases f <;> rfl)

theorem isNaN_neg (none : isNaN x = true) : isNaN (-x) = true := by
  have same : (-x).toModel = Float.Model.pack (UnpackedFloat.neg x.toModel.unpack) := rfl
  rw [isNaN_iff_unpack, same, isNaN_iff_unpack.mp none]
  rfl

theorem isNaN_notANumber : isNaN notANumber = true := by
  decide

end SolidGeometry.Number
