import SolidGeometry.Proofs.Number.Integers
import Mathlib.Algebra.Order.Field.Power
import Mathlib.Tactic.FieldSimp
import Mathlib.Tactic.Linarith
import Mathlib.Tactic.Ring

namespace SolidGeometry.Number

theorem ofDigits_append (l m : List Char) :
    ofDigits (l ++ m) = ofDigits l * 10 ^ m.length + ofDigits m := by
  simp only [ofDigits, ← Nat.ofDigitChars_eq_foldl]
  rw [Nat.ofDigitChars_append, Nat.ofDigitChars_eq_ofDigitChars_zero, Nat.mul_comm]

theorem ofDigits_zeros (k : Nat) : ofDigits (List.replicate k '0') = 0 := by
  induction k with
  | zero => rfl
  | succ k ih => rw [List.replicate_succ', ofDigits_append, ih]; rfl

theorem isDigit_of_mem_zeros {k : Nat} {c : Char} (member : c ∈ List.replicate k '0') :
    isDigit c = true := by
  rw [List.eq_of_mem_replicate member]
  rfl

theorem ofDigits_append_zeros (l : List Char) (k : Nat) :
    ofDigits (l ++ List.replicate k '0') = ofDigits l * 10 ^ k := by
  rw [ofDigits_append, ofDigits_zeros, List.length_replicate, Nat.add_zero]

theorem ofDigits_padded (width n : Nat) : ofDigits (padded width n) = n := by
  simp only [padded, ofDigits_append, ofDigits_zeros, ofDigits_toDigits, Nat.zero_mul, Nat.zero_add]

theorem isDigit_of_mem_padded {width n : Nat} {c : Char} (member : c ∈ padded width n) :
    isDigit c = true := by
  rcases List.mem_append.mp member with zero | digit
  · exact isDigit_of_mem_zeros zero
  · exact isDigit_of_mem_toDigits digit

theorem padded_ne_nil (width n : Nat) : padded width n ≠ [] :=
  List.append_ne_nil_of_right_ne_nil _ Nat.toDigits_ne_nil

theorem length_padded {width n : Nat} (positive : 0 < width) (small : n < 10 ^ width) :
    (padded width n).length = width := by
  have short := (Nat.length_toDigits_le_iff (by decide : 1 < 10) positive).mpr small
  simp only [padded, List.length_append, List.length_replicate]
  omega

/-- The digits of a number other than zero do not begin with a zero. -/
theorem head?_toDigits {n : Nat} (positive : 0 < n) : (Nat.toDigits 10 n).head? ≠ some '0' := by
  have single : ∀ n < 10, 0 < n → [Nat.digitChar n].head? ≠ some '0' := by decide
  induction n using Nat.strongRecOn with
  | ind n ih =>
    by_cases small : n < 10
    · rw [Nat.toDigits_of_lt_base small]
      exact single n small positive
    · have front := ih (n / 10) (by omega) (by omega)
      rw [Nat.toDigits_of_base_le (by decide) (not_lt.mp small), List.head?_append_of_ne_nil]
      · exact front
      · exact Nat.toDigits_ne_nil

def signedValue (negative : Bool) (magnitude : Rat) : Rat :=
  if negative then -magnitude else magnitude

theorem signedValue_mul (negative : Bool) (q r : Rat) :
    signedValue negative q * r = signedValue negative (q * r) := by
  cases negative
  · rfl
  · exact neg_mul q r

/-- Digits before and behind a decimal point, with a sign. -/
structure Numeral where
  negative : Bool
  whole : List Char
  fraction : List Char
  whole_ne_nil : whole ≠ []
  isDigit_of_mem : ∀ c ∈ whole ++ fraction, isDigit c = true

namespace Numeral

/-- How the numeral is written. Without digits behind the point there is no point. -/
def text (n : Numeral) : List Char :=
  withSign n.negative (n.whole ++ if n.fraction = [] then [] else '.' :: n.fraction)

def value (n : Numeral) : Rat :=
  signedValue n.negative (ofDigits (n.whole ++ n.fraction) / 10 ^ n.fraction.length)

end Numeral

/-- A text in decimal notation, with or without a power of ten, and the number it stands for. -/
inductive Notates : List Char → Rat → Prop
  | plain (n : Numeral) : Notates n.text n.value
  | scaled (n : Numeral) (negative : Bool) {power : List Char} (some : power ≠ [])
    (digits : ∀ c ∈ power, isDigit c = true) :
    Notates (n.text ++ 'e' :: (if negative then '-' else '+') :: power)
      (n.value * 10 ^ (if negative then -(ofDigits power : Int) else ofDigits power))

def Decimal.value (d : Decimal) : Rat := signedValue d.negative (d.digits * 10 ^ d.exponent)

theorem withSign_append (negative : Bool) (l m : List Char) :
    withSign negative (l ++ m) = withSign negative l ++ m := by
  cases negative <;> rfl

/-- A text of digits with some of them behind a point. -/
theorem notates_of_digits (negative : Bool) (whole fraction : List Char) {magnitude : Rat}
    (some : whole ≠ []) (digits : ∀ c ∈ whole ++ fraction, isDigit c = true)
    (value : (ofDigits (whole ++ fraction) : Rat) / 10 ^ fraction.length = magnitude) :
    Notates (withSign negative (whole ++ if fraction = [] then [] else '.' :: fraction))
      (signedValue negative magnitude) := by
  subst value
  exact .plain ⟨negative, whole, fraction, some, digits⟩

theorem isDigit_of_mem_append {l m : List Char} (first : ∀ c ∈ l, isDigit c = true)
    (second : ∀ c ∈ m, isDigit c = true) : ∀ c ∈ l ++ m, isDigit c = true :=
  List.forall_mem_append.mpr ⟨first, second⟩

theorem div_ten_pow (q : Rat) (k : Nat) : q / 10 ^ k = q * 10 ^ (-(k : Int)) := by
  rw [zpow_neg, zpow_natCast, div_eq_mul_inv]

namespace Decimal

variable (d : Decimal)

/-- Digits, zeros up to the point and one zero behind it. -/
theorem notates_whole (large : 0 ≤ d.exponent) :
    Notates (withSign d.negative (Nat.toDigits 10 d.digits ++
      List.replicate d.exponent.toNat '0' ++ ['.', '0'])) d.value := by
  refine notates_of_digits d.negative
    (Nat.toDigits 10 d.digits ++ List.replicate d.exponent.toNat '0') ['0']
    (List.append_ne_nil_of_left_ne_nil Nat.toDigits_ne_nil _) ?_ ?_
  · exact isDigit_of_mem_append (isDigit_of_mem_append (fun _ => isDigit_of_mem_toDigits)
      fun _ => isDigit_of_mem_zeros) fun _ => isDigit_of_mem_zeros (k := 1)
  · have last := ofDigits_append_zeros (Nat.toDigits 10 d.digits ++
      List.replicate d.exponent.toNat '0') 1
    have power : (10 : Rat) ^ d.exponent = 10 ^ d.exponent.toNat := by
      rw [← zpow_natCast, Int.toNat_of_nonneg large]
    rw [List.replicate_one] at last
    rw [last, ofDigits_append_zeros, ofDigits_toDigits, power]
    push_cast
    simp

/-- Digits of which some are behind the point. -/
theorem notates_point {count : Nat} (proper : 0 < count)
    (places : d.exponent = count - ((Nat.toDigits 10 d.digits).length : Int))
    (small : d.exponent < 0) :
    Notates (withSign d.negative ((Nat.toDigits 10 d.digits).take count ++
      '.' :: (Nat.toDigits 10 d.digits).drop count)) d.value := by
  have behind : ((Nat.toDigits 10 d.digits).drop count).length = (-d.exponent).toNat := by
    rw [List.length_drop]
    omega
  have some : (Nat.toDigits 10 d.digits).drop count ≠ [] := by
    apply List.ne_nil_of_length_pos
    omega
  have text : Notates _ d.value := notates_of_digits d.negative
    ((Nat.toDigits 10 d.digits).take count) ((Nat.toDigits 10 d.digits).drop count) ?_ ?_ ?_
  · rwa [if_neg some] at text
  · apply List.ne_nil_of_length_pos
    rw [List.length_take]
    have := Nat.length_toDigits_pos (b := 10) (n := d.digits)
    omega
  · rw [List.take_append_drop]
    exact fun _ => isDigit_of_mem_toDigits
  · rw [List.take_append_drop, ofDigits_toDigits, div_ten_pow, behind,
      Int.toNat_of_nonneg (by omega), neg_neg]

/-- A number below one, with zeros behind the point. -/
theorem notates_fraction {zeros : Nat}
    (places : d.exponent = -(zeros + (Nat.toDigits 10 d.digits).length : Int)) :
    Notates (withSign d.negative ('0' :: '.' :: List.replicate zeros '0' ++
      Nat.toDigits 10 d.digits)) d.value := by
  have some : List.replicate zeros '0' ++ Nat.toDigits 10 d.digits ≠ [] :=
    List.append_ne_nil_of_right_ne_nil _ Nat.toDigits_ne_nil
  have text : Notates _ d.value := notates_of_digits d.negative ['0']
    (List.replicate zeros '0' ++ Nat.toDigits 10 d.digits) (by simp) ?_ ?_
  · rwa [if_neg some] at text
  · exact isDigit_of_mem_append (fun _ => isDigit_of_mem_zeros (k := 1))
      (isDigit_of_mem_append (fun _ => isDigit_of_mem_zeros) fun _ => isDigit_of_mem_toDigits)
  · have value : ofDigits (['0'] ++ (List.replicate zeros '0' ++ Nat.toDigits 10 d.digits)) =
        d.digits := by
      simp only [ofDigits_append, ofDigits_zeros, ofDigits_toDigits]
      simp [ofDigits]
    rw [value, div_ten_pow, places]
    simp

/-- One digit before the point and all others behind it, and a power of ten. -/
theorem notates_scaled {scale : Int} (width : Nat)
    (places : scale = (Nat.toDigits 10 d.digits).length - 1 + d.exponent) :
    Notates (withSign d.negative ((Nat.toDigits 10 d.digits).take 1 ++
      (if (Nat.toDigits 10 d.digits).length = 1 then []
        else '.' :: (Nat.toDigits 10 d.digits).drop 1) ++
      'e' :: (if scale < 0 then '-' else '+') :: padded width scale.natAbs)) d.value := by
  have positive := Nat.length_toDigits_pos (b := 10) (n := d.digits)
  have joined := List.take_append_drop 1 (Nat.toDigits 10 d.digits)
  let n : Numeral :=
    { negative := d.negative
      whole := (Nat.toDigits 10 d.digits).take 1
      fraction := (Nat.toDigits 10 d.digits).drop 1
      whole_ne_nil := List.ne_nil_of_length_pos (by rw [List.length_take]; omega)
      isDigit_of_mem := by
        rw [joined]
        exact fun _ => isDigit_of_mem_toDigits }
  have text := Notates.scaled n (decide (scale < 0)) (padded_ne_nil width scale.natAbs)
    fun _ => isDigit_of_mem_padded
  have power : (if decide (scale < 0) then -(ofDigits (padded width scale.natAbs) : Int)
      else ofDigits (padded width scale.natAbs)) = scale := by
    rw [ofDigits_padded]
    by_cases below : scale < 0
    · rw [if_pos (decide_eq_true below)]
      omega
    · rw [if_neg (by simpa using below)]
      omega
  have value : n.value * 10 ^ scale = d.value := by
    have behind : n.fraction.length = (Nat.toDigits 10 d.digits).length - 1 := List.length_drop
    have all : ofDigits (n.whole ++ n.fraction) = d.digits := by
      rw [joined, ofDigits_toDigits]
    rw [Numeral.value, all, signedValue_mul, div_ten_pow, mul_assoc, ← zpow_add₀ (by norm_num),
      behind, Decimal.value]
    congr 3
    omega
  have whole : (Nat.toDigits 10 d.digits).drop 1 = [] ↔ (Nat.toDigits 10 d.digits).length = 1 := by
    rw [List.drop_eq_nil_iff]
    omega
  rw [power, value] at text
  rw [withSign_append]
  simpa only [Numeral.text, n, whole, decide_eq_true_eq] using text

/-- What is written stands for the decimal, in whatever layout. -/
theorem notates_write (layout : Layout) : Notates (d.write layout) d.value := by
  have positive := Nat.length_toDigits_pos (b := 10) (n := d.digits)
  unfold write
  dsimp only
  split
  · split
    · rename_i large
      exact notates_whole d large
    · split
      · rename_i large
        refine notates_point d (Nat.succ_pos _) ?_ (not_le.mp ‹_›)
        omega
      · refine notates_fraction d ?_
        omega
  · exact notates_scaled d layout.exponentWidth rfl

end Decimal

end SolidGeometry.Number
