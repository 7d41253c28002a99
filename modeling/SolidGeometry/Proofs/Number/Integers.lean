import SolidGeometry.Number.Layout
import SolidGeometry.Proofs.Number.Spellings

namespace SolidGeometry.Number

theorem isDigit_of_mem_toDigits {n : Nat} {c : Char} (member : c ∈ Nat.toDigits 10 n) :
    isDigit c = true :=
  Nat.isDigit_of_mem_toDigits (by decide) (by decide) member

theorem ofDigits_toDigits (n : Nat) : ofDigits (Nat.toDigits 10 n) = n := by
  rw [ofDigits, ← Nat.ofDigitChars_eq_foldl]
  exact Nat.ofDigitChars_ten_toDigits

theorem areDigits_toDigits (n : Nat) : AreDigits (Nat.toDigits 10 n) :=
  ⟨Nat.toDigits_ne_nil, fun _ => isDigit_of_mem_toDigits⟩

theorem length_toDigits_le {n : Nat} (small : n < Nat.pow 10 digitLimit) :
    (Nat.toDigits 10 n).length ≤ digitLimit := by
  rw [Nat.pow_eq] at small
  have short := (Nat.length_toDigits_le_iff (by decide) (by decide)).mpr small
  exact short

theorem readDigits_of_length_le {digits : List Char} (short : digits.length ≤ digitLimit) :
    readDigits digits = .ok (ofDigits digits) :=
  if_pos short

theorem readDigits_toDigits {n : Nat} (small : n < Nat.pow 10 digitLimit) :
    readDigits (Nat.toDigits 10 n) = .ok n := by
  rw [readDigits_of_length_le (length_toDigits_le small), ofDigits_toDigits]

/-- The literal of a natural number behind a sign. -/
def Literal.ofNat (sign : Sign) (n : Nat) : Literal := ⟨sign, Nat.toDigits 10 n, .absent⟩

theorem Literal.spelling_ofNat (sign : Sign) (n : Nat) :
    (ofNat sign n).spelling = sign.spelling ++ Nat.toDigits 10 n :=
  List.append_nil _

theorem Literal.scan?_ofNat (sign : Sign) (n : Nat) :
    Literal.scan? (ofNat sign n).spelling = some (ofNat sign n, []) :=
  Literal.scan?_spelling (areDigits_toDigits n) trivial

theorem Literal.value_ofNat (sign : Sign) {n : Nat} (small : n < Nat.pow 10 digitLimit) :
    (ofNat sign n).value = ⟨[], .ok (.int (sign.apply n))⟩ := by
  change (do return .int (sign.apply (← readDigits (Nat.toDigits 10 n))) : Computation Scalar) = _
  rw [readDigits_toDigits small]
  rfl

/-- The sign of an integer, where those that are not negative have a given one. -/
def Sign.ofInt (plain : Sign) (n : Int) : Sign := if n < 0 then .minus else plain

theorem Sign.apply_ofInt {plain : Sign} (proper : plain ≠ .minus) (n : Int) :
    (ofInt plain n).apply n.natAbs = n := by
  unfold ofInt
  split
  · rw [apply, if_pos rfl]
    omega
  · rw [apply, if_neg proper]
    omega

/-- The literal of an integer, where those that are not negative have a given sign. -/
def Literal.ofInt (plain : Sign) (n : Int) : Literal := ofNat (plain.ofInt n) n.natAbs

theorem Literal.value_ofInt {plain : Sign} (proper : plain ≠ .minus) {n : Int}
    (small : n.natAbs < Nat.pow 10 digitLimit) :
    (ofInt plain n).value = ⟨[], .ok (.int n)⟩ := by
  rw [ofInt, value_ofNat _ small, Sign.apply_ofInt proper]

/-- An integer in full is its literal without a plus. -/
theorem toString_eq_spelling (n : Int) :
    toString n = String.ofList (Literal.ofInt .absent n).spelling := by
  rw [Literal.ofInt, Literal.spelling_ofNat, Int.toString_eq_repr, Int.repr_eq_if, Sign.ofInt]
  by_cases negative : n < 0
  · have digits : (-n).toNat = n.natAbs := by omega
    rw [if_neg (by omega), if_pos negative, digits, Nat.repr_eq_ofList_toDigits,
      String.ofList_append]
    rfl
  · have digits : n.toNat = n.natAbs := by omega
    rw [if_pos (by omega), if_neg negative, digits, Nat.repr_eq_ofList_toDigits]
    rfl

end SolidGeometry.Number
