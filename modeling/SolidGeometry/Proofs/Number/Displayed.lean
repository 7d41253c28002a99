import SolidGeometry.Proofs.Number.Decimals
import SolidGeometry.Proofs.Number.Nearest
import Mathlib.Algebra.Ring.Parity

namespace SolidGeometry.Number

/-- No multiple of the last of some decimal places is nearer to a number, and of two equally near
ones this is the even one. -/
structure RoundsTo (places : Nat) (q : Rat) (n : Int) : Prop where
  nearest : ∀ m : Int, |q - n / 10 ^ places| ≤ |q - m / 10 ^ places|
  even : ∀ m : Int, m ≠ n → |q - n / 10 ^ places| = |q - m / 10 ^ places| → Even n

theorem one_le_abs_sub_add_abs_sub {q : Rat} {m n : Int} (other : m ≠ n) :
    1 ≤ |q - n| + |q - m| := by
  have whole : (1 : Rat) ≤ |(m : Rat) - n| := by
    exact_mod_cast Int.one_le_abs (sub_ne_zero.mpr other)
  have way := abs_sub_le (m : Rat) q n
  rw [abs_sub_comm (m : Rat) q] at way
  linarith

/-- A whole number within one half is the nearest one. -/
theorem roundsTo_of_half {places : Nat} {q : Rat} {n : Int} (near : |q * 10 ^ places - n| ≤ 1 / 2)
    (tie : |q * 10 ^ places - n| = 1 / 2 → Even n) : RoundsTo places q n := by
  have power : (0 : Rat) < 10 ^ places := by positivity
  have unit (m : Int) : |q - m / 10 ^ places| = |q * 10 ^ places - m| / 10 ^ places := by
    rw [← abs_of_pos power, ← abs_div, abs_of_pos power, sub_div, mul_div_cancel_right₀ _ power.ne']
  constructor
  · intro m
    rw [unit, unit]
    refine div_le_div_of_nonneg_right ?_ power.le
    by_cases same : m = n
    · rw [same]
    · linarith [one_le_abs_sub_add_abs_sub (q := q * 10 ^ places) same]
  · intro m other level
    rw [unit, unit, div_left_inj' power.ne'] at level
    refine tie (le_antisymm near ?_)
    linarith [one_le_abs_sub_add_abs_sub (q := q * 10 ^ places) other]

section

variable {num den : Nat}

theorem abs_sub_roundHalfEven (positive : 0 < den) :
    |(num : Rat) / den - roundHalfEven num den| ≤ 1 / 2 := by
  have upper : (2 : Rat) * (den * roundHalfEven num den) ≤ 2 * num + den := by
    exact_mod_cast roundHalfEven_le num den positive
  have lower : (2 : Rat) * num ≤ 2 * (den * roundHalfEven num den) + den := by
    exact_mod_cast le_roundHalfEven num den positive
  have proper : (0 : Rat) < den := by exact_mod_cast positive
  have gap : (num : Rat) / den - roundHalfEven num den =
      (num - den * roundHalfEven num den) / den := by
    field_simp
  rw [gap, abs_le, le_div_iff₀ proper, div_le_iff₀ proper]
  constructor <;> linarith

/-- A quotient half-way between two whole numbers is rounded to the even one. -/
theorem even_roundHalfEven (positive : 0 < den)
    (tie : |(num : Rat) / den - roundHalfEven num den| = 1 / 2) : Even (roundHalfEven num den) := by
  have proper : (den : Rat) ≠ 0 := by exact_mod_cast positive.ne'
  have whole : 2 * num = 2 * (den * roundHalfEven num den) + den ∨
      2 * num + den = 2 * (den * roundHalfEven num den) := by
    rcases eq_or_eq_neg_of_abs_eq tie with above | below
    · field_simp at above
      left
      exact_mod_cast (by linarith : (2 : Rat) * num = 2 * (den * roundHalfEven num den) + den)
    · field_simp at below
      right
      exact_mod_cast (by linarith : (2 : Rat) * num + den = 2 * (den * roundHalfEven num den))
  have split := Nat.div_add_mod num den
  have small := Nat.mod_lt num positive
  unfold roundHalfEven at whole ⊢
  dsimp only at whole ⊢
  split at whole
  · omega
  · split at whole
    · rw [Nat.mul_add] at whole
      omega
    · rw [if_neg ‹_›, if_neg ‹_›, Nat.even_iff]
      omega

end

theorem ten_pow_div_ten_pow (exponent : Int) :
    (10 : Rat) ^ exponent.toNat / 10 ^ (-exponent).toNat = 10 ^ exponent := by
  rw [← zpow_natCast, ← zpow_natCast, ← zpow_sub₀ (by norm_num)]
  congr 1
  omega

def signedInt (negative : Bool) (magnitude : Nat) : Int :=
  if negative then -magnitude else magnitude

namespace Decimal

variable (d : Decimal) (places : Nat)

def rounded : Int := signedInt d.negative (d.units places)

theorem abs_sub_rounded : |d.value * 10 ^ places - d.rounded places| =
    |(d.digits : Rat) * 10 ^ (d.exponent + places) - d.units places| := by
  have power : (10 : Rat) ^ (d.exponent + places) = 10 ^ d.exponent * 10 ^ places := by
    rw [zpow_add₀ (by norm_num), zpow_natCast]
  rw [value, signedValue_mul, mul_assoc, ← power, rounded]
  cases d.negative
  · simp [signedValue, signedInt]
  · rw [← abs_neg]
    simp [signedValue, signedInt]
    ring_nf

theorem exact_units : (d.digits : Rat) * 10 ^ (d.exponent + places) =
    ((d.digits * Nat.pow 10 (d.exponent + places).toNat : Nat) : Rat) /
      (Nat.pow 10 (-(d.exponent + places)).toNat : Nat) := by
  rw [← ten_pow_div_ten_pow, ← mul_div_assoc]
  simp only [Nat.pow_eq, Nat.cast_mul, Nat.cast_pow, Nat.cast_ofNat]

theorem abs_sub_units :
    |(d.digits : Rat) * 10 ^ (d.exponent + places) - d.units places| ≤ 1 / 2 := by
  rw [exact_units]
  exact abs_sub_roundHalfEven (Nat.pow_pos (by decide))

/-- A decimal is rounded to the nearest multiple. -/
theorem roundsTo_rounded : RoundsTo places d.value (d.rounded places) := by
  refine roundsTo_of_half ?_ ?_
  · rw [abs_sub_rounded]
    exact d.abs_sub_units places
  · intro tie
    rw [abs_sub_rounded, exact_units] at tie
    have even : Even (d.units places) := even_roundHalfEven (Nat.pow_pos (by decide)) tie
    unfold rounded signedInt
    split
    · exact (Int.even_coe_nat _).mpr even |>.neg
    · exact (Int.even_coe_nat _).mpr even

end Decimal

theorem exists_zeros (l : List Char) :
    ∃ k, l = dropTrailingZeros l ++ List.replicate k '0' := by
  refine ⟨(l.reverse.takeWhile (· == '0')).length, ?_⟩
  have zeros : l.reverse.takeWhile (· == '0') =
      List.replicate (l.reverse.takeWhile (· == '0')).length '0' := by
    refine List.eq_replicate_of_mem fun c member => ?_
    simpa using List.mem_takeWhile_imp member
  have split := congrArg List.reverse (List.takeWhile_append_dropWhile (p := (· == '0'))
    (l := l.reverse))
  rw [List.reverse_append, List.reverse_reverse] at split
  rw [← List.reverse_replicate, ← zeros]
  exact split.symm

theorem getLast?_dropTrailingZeros (l : List Char) :
    (dropTrailingZeros l).getLast? ≠ some '0' := by
  rw [dropTrailingZeros, List.getLast?_reverse]
  intro last
  have kept := List.head?_dropWhile_not (· == '0') l.reverse
  rw [last] at kept
  simp at kept

/-- A numeral without digits that could be left out, and with a sign only if it is not zero. -/
structure Numeral.Canonical (places : Nat) (n : Numeral) : Prop where
  whole : n.whole = ['0'] ∨ n.whole.head? ≠ some '0'
  short : n.fraction.length ≤ places
  trimmed : n.fraction.getLast? ≠ some '0'
  sign : n.negative = true → n.value ≠ 0

/-- Digits in groups of three, of which the first may be shorter. -/
def Grouped : List (List Char) → Prop
  | [] => False
  | first :: rest => 0 < first.length ∧ first.length ≤ 3 ∧ ∀ group ∈ rest, group.length = 3

theorem length_flatten_of_three {groups : List (List Char)}
    (three : ∀ group ∈ groups, group.length = 3) : groups.flatten.length = 3 * groups.length := by
  rw [List.length_flatten, List.map_congr_left three, List.map_const', List.sum_replicate,
    smul_eq_mul, Nat.mul_comm]

/-- Commas set the thousands apart. A digit in front of full groups begins a group of its own. -/
theorem exists_groups {digits : List Char} (some : digits ≠ []) :
    ∃ groups, groupThousands digits = [','].intercalate groups ∧ groups.flatten = digits ∧
      Grouped groups := by
  induction digits with
  | nil => exact absurd rfl some
  | cons c rest ih =>
    rw [groupThousands]
    by_cases last : rest = []
    · subst last
      exact ⟨[[c]], by simp [groupThousands], rfl, by simp [Grouped]⟩
    · obtain ⟨groups, text, all, grouped⟩ := ih last
      cases groups with
      | nil => exact grouped.elim
      | cons first others =>
        obtain ⟨positive, short, three⟩ := grouped
        have length := congrArg List.length all
        rw [List.flatten_cons, List.length_append, length_flatten_of_three three] at length
        split
        · rename_i full
          refine ⟨[c] :: first :: others, ?_, by simp [← all], by simp, by simp, ?_⟩
          · rw [text, List.intercalate_cons_cons]
            rfl
          · have complete : first.length = 3 := by omega
            exact List.forall_mem_cons.mpr ⟨complete, three⟩
        · rename_i open_group
          have room : first.length ≠ 3 := by
            intro complete
            exact open_group ⟨by omega, last⟩
          refine ⟨(c :: first) :: others, ?_, by simp [← all], by simp, ?_, three⟩
          · rw [text]
            cases others <;> simp [List.intercalate_cons_cons]
          · rw [List.length_cons]
            omega

theorem filter_digits {l : List Char} (digits : ∀ c ∈ l, isDigit c = true) :
    l.filter (· ≠ ',') = l := by
  refine List.filter_eq_self.mpr fun c member => ?_
  have digit := digits c member
  refine decide_eq_true ?_
  rintro rfl
  cases digit

/-- Without the commas the digits are left. -/
theorem filter_intercalate {groups : List (List Char)}
    (digits : ∀ c ∈ groups.flatten, isDigit c = true) :
    ([','].intercalate groups).filter (· ≠ ',') = groups.flatten := by
  induction groups with
  | nil => rfl
  | cons first rest ih =>
    rw [List.flatten_cons, List.forall_mem_append] at digits
    have kept : first.filter (· ≠ ',') = first := filter_digits digits.1
    cases rest with
    | nil => simpa using kept
    | cons second others =>
      rw [List.intercalate_cons_cons, List.filter_append, List.filter_append, kept, ih digits.2]
      simp

namespace Numeral

/-- A text of a numeral with commas between groups of its whole digits, or without commas. -/
def LaidOut (n : Numeral) (grouping : Bool) (text : List Char) : Prop :=
  ∃ groups, text = withSign n.negative
      ([','].intercalate groups ++ if n.fraction = [] then [] else '.' :: n.fraction) ∧
    groups.flatten = n.whole ∧ if grouping then Grouped groups else groups.length = 1

theorem LaidOut.filter {n : Numeral} {grouping : Bool} {text : List Char}
    (laid : n.LaidOut grouping text) : text.filter (· ≠ ',') = n.text := by
  obtain ⟨groups, rfl, all, -⟩ := laid
  have digits := n.isDigit_of_mem
  rw [List.forall_mem_append] at digits
  have signed (negative : Bool) (l : List Char) :
      (withSign negative l).filter (· ≠ ',') = withSign negative (l.filter (· ≠ ',')) := by
    cases negative <;> rfl
  have whole : ([','].intercalate groups).filter (· ≠ ',') = n.whole := by
    rw [filter_intercalate (all ▸ digits.1), all]
  rw [signed, List.filter_append, whole, Numeral.text]
  split
  · rfl
  · rw [List.filter_cons_of_pos (by decide), filter_digits digits.2]

end Numeral

namespace Decimal

variable (d : Decimal) (places : Nat)

theorem isDigit_of_mem_trimmed {width n : Nat} {c : Char}
    (member : c ∈ dropTrailingZeros (padded width n)) : isDigit c = true := by
  obtain ⟨k, split⟩ := exists_zeros (padded width n)
  have kept : c ∈ padded width n := by
    rw [split]
    exact List.mem_append_left _ member
  exact isDigit_of_mem_padded kept

def numeral : Numeral where
  negative := d.negative && d.units places != 0
  whole := Nat.toDigits 10 (d.units places / Nat.pow 10 places)
  fraction := dropTrailingZeros (padded places (d.units places % Nat.pow 10 places))
  whole_ne_nil := Nat.toDigits_ne_nil
  isDigit_of_mem := isDigit_of_mem_append (fun _ => isDigit_of_mem_toDigits)
    fun _ => isDigit_of_mem_trimmed

@[simp] theorem numeral_negative :
    (d.numeral places).negative = (d.negative && d.units places != 0) := rfl

@[simp] theorem numeral_whole : (d.numeral places).whole =
    Nat.toDigits 10 (d.units places / Nat.pow 10 places) := rfl

@[simp] theorem numeral_fraction : (d.numeral places).fraction =
    dropTrailingZeros (padded places (d.units places % Nat.pow 10 places)) := rfl

/-- The digits behind the point, and the zeros that are left out behind them. -/
theorem exists_omitted : ∃ k, (d.numeral places).fraction.length + k = places ∧
    ofDigits ((d.numeral places).whole ++ (d.numeral places).fraction) * 10 ^ k =
      d.units places := by
  rcases Nat.eq_zero_or_pos places with rfl | positive
  · have none : (d.numeral 0).fraction = [] := by
      rw [numeral_fraction, Nat.pow_eq, Nat.pow_zero, Nat.mod_one]
      rfl
    refine ⟨0, by rw [none]; rfl, ?_⟩
    rw [none, List.append_nil, numeral_whole, ofDigits_toDigits]
    simp
  · obtain ⟨k, split⟩ := exists_zeros (padded places (d.units places % Nat.pow 10 places))
    have small : d.units places % Nat.pow 10 places < 10 ^ places :=
      Nat.mod_lt _ (Nat.pow_pos (by decide))
    have length := congrArg List.length split
    rw [length_padded positive small, List.length_append, List.length_replicate] at length
    refine ⟨k, length.symm, ?_⟩
    have all := ofDigits_append (Nat.toDigits 10 (d.units places / Nat.pow 10 places))
      (padded places (d.units places % Nat.pow 10 places))
    rw [ofDigits_toDigits, ofDigits_padded, length_padded positive small, split,
      ← List.append_assoc, ofDigits_append_zeros] at all
    refine all.trans ?_
    rw [Nat.mul_comm]
    exact Nat.div_add_mod _ _

theorem value_numeral : (d.numeral places).value = d.rounded places / 10 ^ places := by
  obtain ⟨k, length, all⟩ := d.exists_omitted places
  have magnitude : (ofDigits ((d.numeral places).whole ++ (d.numeral places).fraction) : Rat) /
      10 ^ (d.numeral places).fraction.length = d.units places / 10 ^ places := by
    have power : (10 : Rat) ^ places = 10 ^ (d.numeral places).fraction.length * 10 ^ k := by
      rw [← pow_add, length]
    rw [← all, power, Nat.cast_mul, Nat.cast_pow, Nat.cast_ofNat,
      mul_div_mul_right _ _ (by positivity)]
  rw [Numeral.value, magnitude, numeral_negative, rounded]
  by_cases zero : d.units places = 0
  · simp [zero, signedValue, signedInt]
  · cases d.negative
    · simp [signedValue, signedInt]
    · simp [zero, signedValue, signedInt, neg_div]

theorem canonical_numeral : (d.numeral places).Canonical places := by
  obtain ⟨k, length, all⟩ := d.exists_omitted places
  refine ⟨?_, by omega, getLast?_dropTrailingZeros _, ?_⟩
  · rcases Nat.eq_zero_or_pos (d.units places / Nat.pow 10 places) with zero | positive
    · left
      rw [numeral_whole, zero]
      rfl
    · exact .inr (head?_toDigits positive)
  · intro negative
    rw [numeral_negative, Bool.and_eq_true, bne_iff_ne] at negative
    rw [value_numeral, rounded, negative.1]
    simpa [signedInt] using negative.2

/-- What is written is the numeral of the rounded decimal. -/
theorem laidOut_fixed (grouping : Bool) :
    (d.numeral places).LaidOut grouping (d.fixed places grouping) := by
  cases grouping with
  | false =>
    refine ⟨[(d.numeral places).whole], ?_, List.flatten_singleton, rfl⟩
    rw [List.intercalate_singleton]
    rfl
  | true =>
    obtain ⟨groups, text, all, grouped⟩ := exists_groups (d.numeral places).whole_ne_nil
    refine ⟨groups, ?_, all, grouped⟩
    rw [← text]
    rfl

end Decimal

/-- The shortest decimal is not above the upper end of its interval. -/
theorem gridPoint?_le {mantissa c : Nat} {exponent grid : Int}
    (found : gridPoint? mantissa exponent grid = some c) :
    c * (Nat.pow 2 (2 - exponent).toNat * Nat.pow 10 grid.toNat) ≤
      (4 * mantissa + 2) * (Nat.pow 2 (exponent - 2).toNat * Nat.pow 10 (-grid).toNat) := by
  unfold gridPoint? at found
  generalize Nat.pow 2 (exponent - 2).toNat * Nat.pow 10 (-grid).toNat = num at found ⊢
  generalize Nat.pow 2 (2 - exponent).toNat * Nat.pow 10 grid.toNat = den at found ⊢
  have upper (c : Nat) (holds : (if (Interval.of mantissa exponent).closed then
      (Interval.of mantissa exponent).low * num ≤ c * den &&
        c * den ≤ (Interval.of mantissa exponent).high * num
      else (Interval.of mantissa exponent).low * num < c * den &&
        c * den < (Interval.of mantissa exponent).high * num) = true) :
      c * den ≤ (4 * mantissa + 2) * num := by
    have high : (Interval.of mantissa exponent).high = 4 * mantissa + 2 := rfl
    rw [high] at holds
    split at holds
    · rw [Bool.and_eq_true, decide_eq_true_iff, decide_eq_true_iff] at holds
      exact holds.2
    · rw [Bool.and_eq_true, decide_eq_true_iff, decide_eq_true_iff] at holds
      exact holds.2.le
  dsimp only at found
  split at found
  · rename_i here next
    have between : c = (Interval.of mantissa exponent).centre * num / den ∨
        c = (Interval.of mantissa exponent).centre * num / den + 1 := by
      split at found
      · exact .inl (Option.some.inj found).symm
      · split at found
        · exact .inr (Option.some.inj found).symm
        · have even := Option.some.inj found
          omega
    rcases between with rfl | rfl
    · exact upper _ here
    · exact upper _ next
  · rename_i here next
    cases found
    exact upper _ here
  · rename_i here next
    cases found
    exact upper _ next
  · cases found

theorem scaled_le {c high : Nat} {exponent grid : Int}
    (bound : c * (Nat.pow 2 (2 - exponent).toNat * Nat.pow 10 grid.toNat) ≤
      high * (Nat.pow 2 (exponent - 2).toNat * Nat.pow 10 (-grid).toNat)) :
    (c : Rat) * 10 ^ grid ≤ high * 2 ^ (exponent - 2) := by
  have two := two_pow_div_two_pow (exponent - 2)
  have negated : -(exponent - 2) = 2 - exponent := by ring
  rw [negated] at two
  rw [← ten_pow_div_ten_pow, ← two, ← mul_div_assoc, ← mul_div_assoc,
    div_le_div_iff₀ (by positivity) (by positivity)]
  simp only [Nat.pow_eq] at bound
  have cast : (c : Rat) * (2 ^ (2 - exponent).toNat * 10 ^ grid.toNat) ≤
      high * (2 ^ (exponent - 2).toNat * 10 ^ (-grid).toNat) := by
    exact_mod_cast bound
  linarith

/-- The shortest decimal of a double is not above the interval of those that read back as it. -/
theorem shortest_le (negative : Bool) (mantissa : Nat) (exponent : Int) :
    ((shortest negative mantissa exponent).digits : Rat) *
      10 ^ (shortest negative mantissa exponent).exponent ≤
        (4 * mantissa + 2 : Nat) * 2 ^ (exponent - 2) := by
  have positive : (0 : Rat) ≤ (4 * mantissa + 2 : Nat) * 2 ^ (exponent - 2) := by positivity
  unfold shortest
  split
  · simpa using positive
  · dsimp only
    split
    · rename_i digits grid found
      obtain ⟨g, -, point⟩ := List.exists_of_findSome?_eq_some found
      obtain ⟨c, point, same⟩ := Option.map_eq_some_iff.mp point
      cases same
      exact scaled_le (gridPoint?_le point)
    · simpa using positive

/-- A double has 53 bits and an exponent that is not above the greatest. -/
theorem bounds_of_finite {x : Float} {negative : Bool} {mantissa : Nat} {exponent : Int}
    (finite : Binary64.ofFloat x = .finite negative mantissa exponent) :
    mantissa < 2 ^ 53 ∧ exponent ≤ 971 := by
  have fraction : x.toBits.toNat % Nat.pow 2 52 < 2 ^ 52 := Nat.mod_lt _ (by decide)
  have biased : x.toBits.toNat / Nat.pow 2 52 % Nat.pow 2 11 < 2 ^ 11 := Nat.mod_lt _ (by decide)
  unfold Binary64.ofFloat at finite
  dsimp only at finite
  generalize x.toBits.toNat % Nat.pow 2 52 = f at finite fraction
  generalize x.toBits.toNat / Nat.pow 2 52 % Nat.pow 2 11 = b at finite biased
  split at finite
  · split at finite <;> cases finite
  · split at finite
    · cases finite
      exact ⟨by omega, by decide⟩
    · cases finite
      exact ⟨by simp only [Nat.pow_eq]; omega, by omega⟩

private theorem pow_ten (k : Nat) : Nat.pow 10 k = 10 ^ k := rfl

/-- A rounded double does not have too many digits. -/
theorem units_lt {x : Float} {negative : Bool} {mantissa : Nat} {exponent : Int} {places : Nat}
    (finite : Binary64.ofFloat x = .finite negative mantissa exponent) (few : places ≤ 15) :
    (shortest negative mantissa exponent).units places < Nat.pow 10 precisionLimit := by
  obtain ⟨mantissa_lt, exponent_le⟩ := bounds_of_finite finite
  generalize decimal : shortest negative mantissa exponent = d
  have magnitude : (d.digits : Rat) * 10 ^ d.exponent ≤ 2 ^ 1024 := by
    calc
      (d.digits : Rat) * 10 ^ d.exponent ≤ (4 * mantissa + 2 : Nat) * 2 ^ (exponent - 2) :=
        decimal ▸ shortest_le negative mantissa exponent
      _ ≤ (2 ^ 55 : Nat) * 2 ^ (969 : Int) := by
        gcongr
        · omega
        · norm_num
        · omega
      _ = 2 ^ 1024 := by
        rw [Nat.cast_pow, Nat.cast_ofNat, ← zpow_natCast, ← zpow_natCast,
          ← zpow_add₀ two_ne_zero]
        norm_num
  have scale : (10 : Rat) ^ places ≤ 10 ^ 15 := pow_le_pow_right₀ (by norm_num) few
  have shifted : (d.digits : Rat) * 10 ^ (d.exponent + places) =
      d.digits * 10 ^ d.exponent * 10 ^ places := by
    rw [zpow_add₀ (by norm_num), zpow_natCast, mul_assoc]
  have near := (abs_le.mp (d.abs_sub_units places)).1
  have product : (d.digits : Rat) * 10 ^ d.exponent * 10 ^ places ≤ 2 ^ 1024 * 10 ^ 15 :=
    mul_le_mul magnitude scale (by positivity) (by positivity)
  have room : (2 : Rat) ^ 1024 * 10 ^ 15 + 1 ≤ 10 ^ 400 := by
    exact_mod_cast (by decide +kernel : 2 ^ 1024 * 10 ^ 15 + 1 ≤ 10 ^ 400)
  have below : (d.units places : Rat) < 10 ^ 400 := by
    rw [shifted] at near
    calc
      (d.units places : Rat) ≤ d.digits * 10 ^ d.exponent * 10 ^ places + 1 / 2 := by
        linarith only [near]
      _ < 2 ^ 1024 * 10 ^ 15 + 1 := add_lt_add_of_le_of_lt product (by norm_num)
      _ ≤ 10 ^ 400 := room
  have limit : precisionLimit = 400 := rfl
  rw [pow_ten, limit]
  exact_mod_cast below

theorem display_of_toFloat {a : Scalar} {x : Float} {places : Nat} {grouping : Bool}
    (broken : ∀ n, a ≠ .int n) (converts : a.toFloat = .ok x) :
    a.display places grouping = displayFloat places grouping x := by
  have computed : a.display places grouping =
      (do displayFloat places grouping (← a.toFloat)) := by
    cases a with
    | int n => exact absurd rfl (broken n)
    | ratio q => rfl
    | float y => rfl
    | undefined => rfl
  rw [computed, converts]
  rfl

/-- No float has too many digits to be rounded to decimal places that can be chosen. -/
theorem exists_displayFloat {places : Nat} (few : places ≤ 15) (grouping : Bool) (x : Float) :
    ∃ text, displayFloat places grouping x = .ok text := by
  unfold displayFloat
  cases parts : Binary64.ofFloat x with
  | finite negative mantissa exponent =>
    exact ⟨_, if_pos (units_lt parts few)⟩
  | infinite negative => exact ⟨_, rfl⟩
  | nan => exact ⟨_, rfl⟩

/-- A number that is not an integer is written as the nearest multiple of the last of its decimal
places, the even one of two. What is rounded is the decimal that stands for its double in full. The
text is a numeral without digits that could be left out, in groups of three digits if that is asked
for, and what is rounded always fits into 400 digits. -/
theorem display_rounded {a : Scalar} {x : Float} {negative : Bool} {mantissa : Nat}
    {exponent : Int} {places : Nat} (few : places ≤ 15) (broken : ∀ n, a ≠ .int n)
    (converts : a.toFloat = .ok x)
    (finite : Binary64.ofFloat x = .finite negative mantissa exponent) (grouping : Bool) :
    ∃ text n, ∃ numeral : Numeral, a.display places grouping = .ok text ∧
      Notates (writeFloat x).toList (shortest negative mantissa exponent).value ∧
      RoundsTo places (shortest negative mantissa exponent).value n ∧ n.natAbs < 10 ^ 400 ∧
      text.toList.filter (· ≠ ',') = numeral.text ∧ numeral.value = n / 10 ^ places ∧
      numeral.Canonical places ∧ numeral.LaidOut grouping text.toList := by
  let d := shortest negative mantissa exponent
  have written : writeFloat x = String.ofList (d.write messageLayout) := by
    rw [writeFloat, finite]
  have room := units_lt finite few
  have shown : a.display places grouping = .ok (String.ofList (d.fixed places grouping)) := by
    rw [display_of_toFloat broken converts, displayFloat, finite]
    exact if_pos room
  have laid : (d.numeral places).LaidOut grouping
      (String.ofList (d.fixed places grouping)).toList := by
    rw [String.toList_ofList]
    exact d.laidOut_fixed places grouping
  have size : (d.rounded places).natAbs < 10 ^ 400 := by
    have limit : precisionLimit = 400 := rfl
    rw [pow_ten, limit] at room
    unfold Decimal.rounded signedInt
    split
    · rwa [Int.natAbs_neg, Int.natAbs_natCast]
    · rwa [Int.natAbs_natCast]
  refine ⟨_, d.rounded places, d.numeral places, shown, ?_, d.roundsTo_rounded places, size,
    laid.filter, d.value_numeral places, d.canonical_numeral places, laid⟩
  rw [written, String.toList_ofList]
  exact d.notates_write messageLayout

/-- A number half-way between two whole ones is rounded to the even one, with one group more. -/
theorem display_rounded_carry : ∃ n, ∃ numeral : Numeral, RoundsTo 0 (9999995 / 10) n ∧
    numeral.value = n / 10 ^ 0 ∧ numeral.Canonical 0 ∧
      numeral.LaidOut true "1,000,000".toList := by
  have finite : Binary64.ofFloat 999999.5 = .finite false 8589930297032704 (-33) := by
    decide +kernel
  have decimal : shortest false 8589930297032704 (-33) = ⟨false, 9999995, -1⟩ := by
    decide +kernel
  have value : (shortest false 8589930297032704 (-33)).value = 9999995 / 10 := by
    rw [decimal]
    norm_num [Decimal.value, signedValue]
  have few : 0 ≤ 15 := by decide
  have broken : ∀ n, Scalar.float 999999.5 ≠ .int n := by
    intro n same
    cases same
  have converts : (Scalar.float 999999.5).toFloat = .ok 999999.5 := rfl
  have written : (Scalar.float 999999.5).display 0 true = .ok "1,000,000" := by decide +kernel
  obtain ⟨text, n, numeral, shown, -, rounds, -, -, denoted, canonical, laid⟩ :=
    display_rounded few broken converts finite true
  cases written.symm.trans shown
  rw [value] at rounds
  exact ⟨n, numeral, rounds, denoted, canonical, laid⟩

end SolidGeometry.Number
