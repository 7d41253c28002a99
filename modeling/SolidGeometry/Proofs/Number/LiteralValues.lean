import Mathlib.Data.Int.Log
import SolidGeometry.Proofs.Number.Decimals
import SolidGeometry.Proofs.Number.Nearest
import SolidGeometry.Proofs.Number.Spellings

namespace SolidGeometry.Number

/-- The digits are those of a number, with or without zeros in front. -/
def Spells (digits : List Char) (n : Nat) : Prop :=
  ∃ zeros, digits = List.replicate zeros '0' ++ Nat.toDigits 10 n

variable {digits : List Char} {n : Nat} {c : Char}

theorem ofDigits_concat (digits : List Char) (c : Char) :
    ofDigits (digits ++ [c]) = 10 * ofDigits digits + (c.toNat - '0'.toNat) := by
  rw [ofDigits, List.foldl_concat]
  rfl

theorem digitChar_of_isDigit (digit : isDigit c = true) :
    c.toNat - '0'.toNat < 10 ∧ Nat.digitChar (c.toNat - '0'.toNat) = c := by
  have bounds : '0'.toNat ≤ c.toNat ∧ c.toNat ≤ '9'.toNat := by
    simpa [isDigit, Char.le_def, UInt32.le_iff_toNat_le] using digit
  have nine : '9'.toNat = '0'.toNat + 9 := rfl
  have zero : '0'.toNat = 48 := rfl
  refine ⟨by omega, Char.toNat_inj.mp ?_⟩
  rw [Nat.toNat_digitChar_of_lt_ten (by omega)]
  omega

theorem spells_digit (digit : isDigit c = true) : Spells [c] (c.toNat - '0'.toNat) := by
  obtain ⟨small, same⟩ := digitChar_of_isDigit digit
  exact ⟨0, by rw [Nat.toDigits_of_lt_base small, same]; rfl⟩

/-- One more digit behind others. -/
theorem Spells.concat (spells : Spells digits n) (digit : isDigit c = true) :
    Spells (digits ++ [c]) (10 * n + (c.toNat - '0'.toNat)) := by
  obtain ⟨small, same⟩ := digitChar_of_isDigit digit
  obtain ⟨zeros, rfl⟩ := spells
  rcases Nat.eq_zero_or_pos n with rfl | positive
  · refine ⟨zeros + 1, ?_⟩
    rw [Nat.mul_zero, Nat.zero_add, Nat.toDigits_of_lt_base small, same, List.replicate_succ']
    rfl
  · have joined := Nat.toDigits_append_toDigits (b := 10) (by decide) positive small
    rw [Nat.toDigits_of_lt_base small, same] at joined
    exact ⟨zeros, by rw [List.append_assoc, joined]⟩

/-- All digits spell a number. -/
theorem AreDigits.spells (areDigits : AreDigits digits) : Spells digits (ofDigits digits) := by
  obtain ⟨some, all⟩ := areDigits
  induction digits using List.reverseRecOn with
  | nil => exact absurd rfl some
  | append_singleton front c ih =>
    have digit : isDigit c = true := all c (List.mem_append_right _ (List.mem_singleton_self c))
    rw [ofDigits_concat]
    by_cases none : front = []
    · subst none
      simpa [ofDigits] using spells_digit digit
    · exact (ih none fun d member => all d (List.mem_append_left _ member)).concat digit

theorem natAbs_apply (sign : Sign) (n : Nat) : (sign.apply n).natAbs = n := by
  unfold Sign.apply
  split <;> simp

theorem apply_neg_iff (sign : Sign) {n : Nat} (positive : 0 < n) :
    sign.apply n < 0 ↔ sign = .minus := by
  unfold Sign.apply
  split <;> simp [*]

/-- A quotient in lowest terms. -/
theorem num_den_mkRat (sign : Sign) (n : Nat) {m : Nat} (positive : 0 < m) :
    (mkRat (sign.apply n) m).num = sign.apply (n / n.gcd m) ∧
      (mkRat (sign.apply n) m).den = m / n.gcd m := by
  rw [Rat.num_mkRat, Rat.den_mkRat, if_neg positive.ne', if_neg positive.ne', natAbs_apply,
    Nat.gcd_comm m n]
  refine ⟨?_, rfl⟩
  unfold Sign.apply
  split
  · rw [Int.neg_ediv_of_dvd (Int.natCast_dvd_natCast.mpr (Nat.gcd_dvd_left n m)), Int.natCast_ediv]
  · exact (Int.natCast_ediv n _).symm

/-- A quotient is whole exactly if the denominator divides the numerator. -/
theorem den_mkRat_eq_one_iff (sign : Sign) (n : Nat) {m : Nat} (positive : 0 < m) :
    (mkRat (sign.apply n) m).den = 1 ↔ m ∣ n := by
  rw [(num_den_mkRat sign n positive).2, Nat.div_eq_iff_eq_mul_left
    (Nat.gcd_pos_of_pos_right n positive) (Nat.gcd_dvd_right n m), Nat.one_mul, eq_comm,
    Nat.gcd_eq_right_iff_dvd]

theorem lt_two_pow_binaryExponent (num : Nat) {den : Nat} (den_positive : 0 < den) :
    (num / den : Rat) < 2 ^ (binaryExponent num den + 1) := by
  have above : (0 : Rat) < den := by exact_mod_cast den_positive
  unfold binaryExponent
  dsimp only
  split
  · rename_i less
    have less : (num : Rat) * 2 ^ (-((num.log2 : Int) - den.log2)).toNat <
        den * 2 ^ ((num.log2 : Int) - den.log2).toNat := by exact_mod_cast less
    rw [sub_add_cancel, ← two_pow_div_two_pow, div_lt_div_iff₀ above (by positivity)]
    linarith
  · have upper : (num : Rat) < 2 ^ (num.log2 + 1) := by exact_mod_cast Nat.lt_log2_self
    have lower : (2 : Rat) ^ den.log2 ≤ den := by
      exact_mod_cast Nat.log2_self_le den_positive.ne'
    have power : (2 : Rat) ^ ((num.log2 : Int) - den.log2 + 1) =
        2 ^ (num.log2 + 1) / 2 ^ den.log2 := by
      rw [← zpow_natCast, ← zpow_natCast, ← zpow_sub₀ two_ne_zero]
      congr 1
      push_cast
      ring
    rw [power]
    exact div_lt_div₀ upper lower (by positivity) (by positivity)

theorem binaryExponent_eq_log {num den : Nat} (num_positive : 0 < num) (den_positive : 0 < den) :
    binaryExponent num den = Int.log 2 (num / den : Rat) := by
  have quotient : (0 : Rat) < num / den := by positivity
  have lower := two_pow_binaryExponent_le num_positive den_positive
  have upper := lt_two_pow_binaryExponent num den_positive
  refine le_antisymm ?_ ?_
  · exact (Int.zpow_le_iff_le_log (by decide) quotient).mp (by exact_mod_cast lower)
  · exact Int.lt_add_one_iff.mp ((Int.lt_zpow_iff_log_lt (by decide) quotient).mp
      (by exact_mod_cast upper))

theorem roundHalfEven_mul {k : Nat} (positive : 0 < k) (num den : Nat) :
    roundHalfEven (k * num) (k * den) = roundHalfEven num den := by
  have less : 2 * (k * (num % den)) < k * den ↔ 2 * (num % den) < den := by
    rw [Nat.mul_left_comm, Nat.mul_lt_mul_left positive]
  have more : k * den < 2 * (k * (num % den)) ↔ den < 2 * (num % den) := by
    rw [Nat.mul_left_comm, Nat.mul_lt_mul_left positive]
  simp only [roundHalfEven, Nat.mul_div_mul_left _ _ positive, Nat.mul_mod_mul_left, less, more]

/-- The nearest double depends on the quotient alone. -/
theorem nearestBits_mul {k : Nat} (positive : 0 < k) (num : Nat) {den : Nat}
    (den_positive : 0 < den) : nearestBits (k * num) (k * den) = nearestBits num den := by
  rcases Nat.eq_zero_or_pos num with rfl | num_positive
  · simp only [Nat.mul_zero, nearestBits, if_true]
  have some : k * num ≠ 0 := (Nat.mul_pos positive num_positive).ne'
  have exponent : binaryExponent (k * num) (k * den) = binaryExponent num den := by
    have proper : (k : Rat) ≠ 0 := by exact_mod_cast positive.ne'
    rw [binaryExponent_eq_log (Nat.mul_pos positive num_positive)
      (Nat.mul_pos positive den_positive), binaryExponent_eq_log num_positive den_positive,
      Nat.cast_mul, Nat.cast_mul, mul_div_mul_left _ _ proper]
  unfold nearestBits
  rw [if_neg some, if_neg num_positive.ne', exponent]
  dsimp only
  rw [Nat.mul_assoc, Nat.mul_assoc, roundHalfEven_mul positive]

/-- A decimal other than zero is rounded to the nearest double. -/
theorem decimalFloat_eq (sign : Sign) {digits places : List Char}
    (some : ofDigits (digits ++ places) ≠ 0) :
    decimalFloat sign digits places =
      (nearest? (mkRat (sign.apply (ofDigits (digits ++ places))) (10 ^ places.length))).getD
        (signed (decide (sign = .minus)) infinityBits) := by
  generalize shape : ofDigits (digits ++ places) = n at some ⊢
  have power : 0 < 10 ^ places.length := Nat.pow_pos (by decide)
  have common : 0 < n.gcd (10 ^ places.length) := Nat.gcd_pos_of_pos_right n power
  obtain ⟨num, den⟩ := num_den_mkRat sign n power
  have bits : nearestBits (n / n.gcd (10 ^ places.length))
      (10 ^ places.length / n.gcd (10 ^ places.length)) = nearestBits n (10 ^ places.length) := by
    rw [← nearestBits_mul common _ (Nat.div_pos (Nat.gcd_le_right n power) common),
      Nat.mul_div_cancel' (Nat.gcd_dvd_left n _), Nat.mul_div_cancel' (Nat.gcd_dvd_right n _)]
  have negative : sign.apply (n / n.gcd (10 ^ places.length)) < 0 ↔ sign = .minus :=
    apply_neg_iff sign (Nat.div_pos (Nat.gcd_le_left _ (Nat.pos_of_ne_zero some)) common)
  unfold decimalFloat nearestDecimal nearest?
  dsimp only
  rw [shape, num, den, natAbs_apply, bits, decide_eq_decide.mpr negative]
  change signed _ (min (nearestBits n (10 ^ places.length)) infinityBits) = _
  split
  · rename_i finite
    rw [Nat.min_eq_left finite.le, Option.getD_some]
  · rename_i beyond
    rw [Nat.min_eq_right (not_lt.mp beyond), Option.getD_none]

/-- The digits of an integer, of a numerator and of a denominator are within the limit. -/
def Literal.Legible (l : Literal) : Prop :=
  match l.tail with
  | .absent => l.digits.length ≤ digitLimit
  | .denominator digits => l.digits.length ≤ digitLimit ∧ digits.length ≤ digitLimit
  | .places _ => True

instance : (l : Literal) → Decidable l.Legible
  | ⟨_, digits, .absent⟩ => inferInstanceAs (Decidable (digits.length ≤ digitLimit))
  | ⟨_, digits, .denominator denominator⟩ =>
    inferInstanceAs (Decidable (digits.length ≤ digitLimit ∧ denominator.length ≤ digitLimit))
  | ⟨_, _, .places _⟩ => inferInstanceAs (Decidable True)

namespace Literal

variable {sign : Sign} {digits below : List Char}

/-- An integer within the limit. -/
theorem value_of_absent (short : digits.length ≤ digitLimit) :
    value ⟨sign, digits, .absent⟩ = ⟨[], .ok (.int (sign.apply (ofDigits digits)))⟩ := by
  unfold value
  dsimp only
  rw [readDigits_of_length_le short]
  rfl

/-- The denominator is read first, and nothing else if it is zero. -/
theorem value_of_zero (short : below.length ≤ digitLimit) (zero : ofDigits below = 0) :
    value ⟨sign, digits, .denominator below⟩ =
      ⟨[.warning ⟨.division, "Division by zero in literal " ++ Text.quoted (String.ofList
        (spelling ⟨sign, digits, .denominator below⟩))⟩], .ok .undefined⟩ := by
  unfold value
  dsimp only
  rw [readDigits_of_length_le short, zero]
  rfl

theorem value_of_denominator (short : digits.length ≤ digitLimit)
    (alsoShort : below.length ≤ digitLimit) (some : ofDigits below ≠ 0) :
    value ⟨sign, digits, .denominator below⟩ =
      ⟨[], .ok (.ofRat (mkRat (sign.apply (ofDigits digits)) (ofDigits below)))⟩ := by
  unfold value
  dsimp only
  rw [readDigits_of_length_le alsoShort, readDigits_of_length_le short]
  refine (Noted.bind_ok _ rfl).trans ?_
  rw [if_neg some]
  rfl

theorem Legible.exists_value {l : Literal} (legible : l.Legible) :
    ∃ a, l.value.result = .ok a := by
  obtain ⟨sign, digits, tail⟩ := l
  cases tail with
  | absent => exact ⟨_, congrArg Noted.result (value_of_absent legible)⟩
  | places places => exact ⟨_, rfl⟩
  | denominator below =>
    by_cases zero : ofDigits below = 0
    · exact ⟨_, congrArg Noted.result (value_of_zero legible.2 zero)⟩
    · exact ⟨_, congrArg Noted.result (value_of_denominator legible.1 legible.2 zero)⟩

end Literal

namespace SpacedLiteral

/-- What a literal stands for, by the numbers that its digits spell. -/
inductive Means (l : SpacedLiteral) : Computation Scalar → Prop where
  | integer {n : Nat} (tail : l.tail = .absent) (whole : Spells l.digits n) :
    Means l ⟨[], .ok (.int (l.sign.apply n))⟩
  /-- The quotient of two integers of which one divides the other. -/
  | divided {below : List Char} {n m : Nat} (tail : l.tail = .denominator below)
    (above : Spells l.digits n) (under : Spells below m) (positive : 0 < m) (divides : m ∣ n) :
    Means l ⟨[], .ok (.int (l.sign.apply (n / m)))⟩
  /-- The quotient of two other integers, in lowest terms. -/
  | fraction {below : List Char} {n m : Nat} {q : Rat} (tail : l.tail = .denominator below)
    (above : Spells l.digits n) (under : Spells below m) (positive : 0 < m) (proper : ¬m ∣ n)
    (num : q.num = l.sign.apply (n / n.gcd m)) (den : q.den = m / n.gcd m) :
    Means l ⟨[], .ok (.ratio q)⟩
  /-- No number, and a warning that shows the text without its blanks. -/
  | undefined {below : List Char} (tail : l.tail = .denominator below) (zero : Spells below 0) :
    Means l ⟨[.warning ⟨.division, "Division by zero in literal " ++
      Text.quoted (String.ofList (l.text.filter (!isInnerBlank ·)))⟩], .ok .undefined⟩
  /-- The double nearest to a decimal, an infinity beyond the doubles. Zero keeps its sign. -/
  | decimal {places : List Char} {n : Nat} {x : Float} (tail : l.tail = .places places)
    (all : Spells (l.digits ++ places) n) (zero : n = 0 → x = signed (l.sign = .minus) 0)
    (rounded : n ≠ 0 → x = (nearest? (mkRat (l.sign.apply n) (10 ^ places.length))).getD
      (signed (l.sign = .minus) infinityBits)) :
    Means l ⟨[], .ok (.float x)⟩

/-- Without its blanks the text of a literal is its spelling. -/
theorem filter_text (l : SpacedLiteral) :
    l.text.filter (!isInnerBlank ·) = l.spelling := by
  have digits {digits : List Char} (areDigits : AreDigits digits) :
      digits.filter (!isInnerBlank ·) = digits := List.filter_eq_self.mpr fun c member => by
    rw [isInnerBlank_of_isDigit (areDigits.all c member), Bool.not_false]
  have blanks : l.blanks.filter (!isInnerBlank ·) = [] :=
    List.filter_eq_nil_iff.mpr fun c member => by simp [l.blank c member]
  have sign : l.sign.spelling.filter (!isInnerBlank ·) = l.sign.spelling := by
    cases l.sign <;> rfl
  have tail : l.tail.spelling.filter (!isInnerBlank ·) = l.tail.spelling := by
    have proper := l.proper
    cases shape : l.tail with
    | absent => rfl
    | denominator below =>
      rw [shape] at proper
      exact congrArg ('/' :: ·) (digits proper)
    | places places =>
      rw [shape] at proper
      exact congrArg ('.' :: ·) (digits proper)
  rw [text, List.filter_append, List.filter_append, List.filter_append, sign, blanks,
    digits l.areDigits, tail, List.append_nil]
  rfl

/-- A literal of legible digits stands for what they spell. -/
theorem means_value (l : SpacedLiteral) (legible : l.Legible) : l.Means l.value := by
  have proper := l.proper
  cases shape : l.tail with
  | absent =>
    have literal : l.toLiteral = ⟨l.sign, l.digits, .absent⟩ := by rw [← shape]
    rw [literal] at legible ⊢
    rw [Literal.value_of_absent legible]
    exact .integer shape l.areDigits.spells
  | denominator below =>
    have literal : l.toLiteral = ⟨l.sign, l.digits, .denominator below⟩ := by rw [← shape]
    rw [shape] at proper
    have under : Spells below (ofDigits below) := AreDigits.spells proper
    have text := l.filter_text
    rw [literal] at legible text ⊢
    by_cases zero : ofDigits below = 0
    · rw [Literal.value_of_zero legible.2 zero, ← text]
      exact .undefined shape (zero ▸ under)
    · have positive := Nat.pos_of_ne_zero zero
      obtain ⟨num, den⟩ := num_den_mkRat l.sign (ofDigits l.digits) positive
      have whole := den_mkRat_eq_one_iff l.sign (ofDigits l.digits) positive
      rw [Literal.value_of_denominator legible.1 legible.2 zero, Scalar.ofRat]
      by_cases divides : ofDigits below ∣ ofDigits l.digits
      · rw [if_pos (whole.mpr divides), num, Nat.gcd_eq_right divides]
        exact .divided shape l.areDigits.spells under positive divides
      · rw [if_neg (mt whole.mp divides)]
        exact .fraction shape l.areDigits.spells under positive divides num den
  | places places =>
    have literal : l.toLiteral = ⟨l.sign, l.digits, .places places⟩ := by rw [← shape]
    rw [shape] at proper
    have all := (l.areDigits.append proper).spells
    rw [literal]
    refine .decimal shape all (fun zero => ?_) (decimalFloat_eq l.sign)
    unfold decimalFloat nearestDecimal
    rw [zero]
    rfl

end SpacedLiteral

/-- The number of a text that is one literal. -/
def Literal.read? (text : String) : Option (Computation Scalar) := (ofText? text).map value

theorem SpacedLiteral.read?_text (l : SpacedLiteral) :
    Literal.read? (String.ofList l.text) = some l.value := by
  rw [Literal.read?, Literal.ofText?_eq_some.mpr l.scan?_text, Option.map_some]

namespace Literal

/-- An exact number in full: a numerator, and a denominator other than one. -/
def ofRat (q : Rat) : Literal :=
  ⟨Sign.absent.ofInt q.num, Nat.toDigits 10 q.num.natAbs,
    if q.den = 1 then .absent else .denominator (Nat.toDigits 10 q.den)⟩

theorem proper_ofRat (q : Rat) : (ofRat q).tail.Proper := by
  unfold ofRat
  dsimp only
  split
  · trivial
  · exact areDigits_toDigits _

/-- This is how exact numbers are usually written. -/
theorem toString_eq_spelling_ofRat (q : Rat) : toString q = String.ofList (ofRat q).spelling := by
  have num := toString_eq_spelling q.num
  have den : toString q.den = String.ofList (Nat.toDigits 10 q.den) := Nat.repr_eq_ofList_toDigits
  rw [ofInt, spelling_ofNat] at num
  change (if q.den = 1 then toString q.num else toString q.num ++ "/" ++ toString q.den) = _
  rw [num, den]
  refine String.toList_inj.mp ?_
  simp only [spelling, ofRat]
  split <;> simp [Tail.spelling]

theorem value_ofRat {q : Rat} (num : q.num.natAbs < Nat.pow 10 digitLimit)
    (den : q.den < Nat.pow 10 digitLimit) :
    (ofRat q).value = ⟨[], .ok (if q.den = 1 then .int q.num else .ratio q)⟩ := by
  have above : (Sign.absent.ofInt q.num).apply q.num.natAbs = q.num :=
    Sign.apply_ofInt Sign.noConfusion q.num
  unfold ofRat
  by_cases whole : q.den = 1
  · rw [if_pos whole, if_pos whole, value_of_absent (length_toDigits_le num), ofDigits_toDigits,
      above]
  · have under : ofDigits (Nat.toDigits 10 q.den) = q.den := ofDigits_toDigits q.den
    have some : ofDigits (Nat.toDigits 10 q.den) ≠ 0 := by
      rw [under]
      exact q.den_ne_zero
    rw [if_neg whole, value_of_denominator (length_toDigits_le num) (length_toDigits_le den) some,
      ofDigits_toDigits, under, above, Rat.mkRat_self, Scalar.ofRat]

/-- Exact numbers are read back. -/
theorem read?_toString {q : Rat} (num : q.num.natAbs < Nat.pow 10 digitLimit)
    (den : q.den < Nat.pow 10 digitLimit) :
    read? (toString q) = some ⟨[], .ok (if q.den = 1 then .int q.num else .ratio q)⟩ := by
  have scanned := scan?_spelling (areDigits_toDigits q.num.natAbs : AreDigits (ofRat q).digits)
    (proper_ofRat q)
  rw [toString_eq_spelling_ofRat, read?, ofText?_eq_some.mpr scanned, Option.map_some,
    value_ofRat num den]

end Literal

/-- A number token stands for exactly what its digits spell, and exact numbers are read back from
their usual notation. Only the digits of integers, numerators and denominators have a limit. -/
theorem literals_exact :
    (∀ text, Grammar.Terminal.number.match? text = some text.length ↔
      ∃ l : SpacedLiteral, l.text = text) ∧
    (∀ l : SpacedLiteral, l.Legible →
      ∃ c, Literal.read? (String.ofList l.text) = some c ∧ l.Means c) ∧
    ∀ q : Rat, q.num.natAbs < Nat.pow 10 digitLimit → q.den < Nat.pow 10 digitLimit →
      Literal.read? (toString q) = some ⟨[], .ok (if q.den = 1 then .int q.num else .ratio q)⟩ := by
  refine ⟨fun text => match?_number_iff, fun l legible => ?_, fun q => Literal.read?_toString⟩
  exact ⟨l.value, l.read?_text, l.means_value legible⟩

/-- Blanks and zeros in front of digits do not count, and the quotient is reduced. -/
theorem literals_exact_fraction :
    let l : SpacedLiteral :=
      { sign := .minus
        digits := ['0', '6']
        tail := .denominator ['0', '4']
        blanks := [' ']
        blank := List.all_eq_true.mp rfl
        unspaced := nofun
        areDigits := ⟨by simp, List.all_eq_true.mp rfl⟩
        proper := ⟨by simp, List.all_eq_true.mp rfl⟩ }
    let q : Rat := mkRat (-3) 2
    (l.Legible ∧ ∃ c, Literal.read? "- 06/04" = some c ∧ l.Means c) ∧
      q.num.natAbs < Nat.pow 10 digitLimit ∧ q.den < Nat.pow 10 digitLimit ∧
      Literal.read? (toString q) = some ⟨[], .ok (.ratio q)⟩ := by
  intro l q
  have small {n k : Nat} (digit : n < 10) (some : k ≠ 0) : n < Nat.pow 10 k :=
    Nat.lt_of_lt_of_le digit (Nat.le_self_pow some 10)
  have num : q.num.natAbs < Nat.pow 10 digitLimit := small (by decide) (by decide)
  have den : q.den < Nat.pow 10 digitLimit := small (by decide) (by decide)
  have legible : l.Legible := by decide
  exact ⟨⟨legible, literals_exact.2.1 l legible⟩, num, den, literals_exact.2.2 q num den⟩

end SolidGeometry.Number
