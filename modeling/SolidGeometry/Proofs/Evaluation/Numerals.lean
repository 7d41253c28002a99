import SolidGeometry.Proofs.Evaluation.Outcomes
import SolidGeometry.Proofs.Grammar.FlatReading

namespace SolidGeometry
open Grammar Number

def Number.Literal.outcome (l : Literal) : Option Value := l.value.result.toOption.map .number

/-- The value of the first number of a text, and what follows the number. -/
def numeral? : List Char → Option (Option Value × List Char)
  | [] => none
  | c :: rest =>
    match Literal.scan? (c :: rest) with
    | some (literal, more) => some (literal.outcome, more)
    | none => numeral? rest

variable {text rest more : List Char} {n : Nat}

/-- A plus sign does not change a number. -/
theorem outcome_plus (digits : List Char) (tail : Tail) :
    Literal.outcome ⟨.plus, digits, tail⟩ = Literal.outcome ⟨.absent, digits, tail⟩ := by
  have apply : ∀ magnitude, Sign.plus.apply magnitude = Sign.absent.apply magnitude := fun _ => rfl
  have float : ∀ places, decimalFloat .plus digits places = decimalFloat .absent digits places :=
    fun _ => rfl
  refine congrArg (Option.map Value.number) ?_
  unfold Literal.value
  cases tail with
  | absent => simp only [apply]
  | places places => simp only [float]
  | denominator denominator =>
    dsimp only
    rw [toOption_bind, toOption_bind]
    refine congrArg (Option.bind _) (funext fun d => ?_)
    have warned : ∀ detail, (Noted.warn .division detail >>= fun _ =>
        (pure .undefined : Computation Scalar)).result.toOption = some .undefined := fun _ => rfl
    by_cases zero : d = 0
    · rw [if_pos zero, if_pos zero]
      exact (warned _).trans (warned _).symm
    · simp only [if_neg zero, apply]

theorem numeral?_of_scan? {literal : Literal}
    (scanned : Literal.scan? text = some (literal, rest)) :
    numeral? text = some (literal.outcome, rest) := by
  cases text with
  | nil => cases scanned
  | cons c others =>
    unfold numeral?
    rw [scanned]

theorem numeral?_of_unscanned {c : Char} (unscanned : Literal.scan? (c :: rest) = none) :
    numeral? (c :: rest) = numeral? rest := by
  rw [numeral?, unscanned]

theorem numeral?_of_not_begins {c : Char} (other : Terminal.number.begins c = false) :
    numeral? (c :: rest) = numeral? rest := by
  refine numeral?_of_unscanned ?_
  cases scanned : Literal.scan? (c :: rest) with
  | none => rfl
  | some found =>
    have begins := begins_scan? scanned
    rw [show (isDigit c || c == '+' || c == '-') = false from other] at begins
    cases begins

theorem numeral?_append {front : List Char} (rest : List Char)
    (others : ∀ c ∈ front, Terminal.number.begins c = false) :
    numeral? (front ++ rest) = numeral? rest := by
  induction front with
  | nil => rfl
  | cons c front ih =>
    rw [List.cons_append, numeral?_of_not_begins (others c List.mem_cons_self)]
    exact ih fun d member => others d (List.mem_cons_of_mem c member)

/-- No number begins with a separator. -/
theorem numeral?_skip (text : List Char) : numeral? (skip text) = numeral? text := by
  have blank : ∀ c ∈ text.takeWhile isSeparator, Terminal.number.begins c = false := by
    intro c member
    have separator := List.all_eq_true.mp (List.all_takeWhile (p := isSeparator)) c member
    simp only [isSeparator, Bool.or_eq_true, beq_iff_eq] at separator
    rcases separator with (rfl | rfl) | rfl <;> rfl
  have whole := numeral?_append (text.dropWhile isSeparator) blank
  rw [List.takeWhile_append_dropWhile] at whole
  exact whole.symm

private theorem numeral?_dropWhile (text : List Char) :
    numeral? (text.dropWhile isInnerBlank) = numeral? text := by
  have blank : ∀ c ∈ text.takeWhile isInnerBlank, Terminal.number.begins c = false := by
    intro c member
    have inner := List.all_eq_true.mp (List.all_takeWhile (p := isInnerBlank)) c member
    simp only [isInnerBlank, Bool.or_eq_true, beq_iff_eq] at inner
    rcases inner with rfl | rfl <;> rfl
  have whole := numeral?_append (text.dropWhile isInnerBlank) blank
  rw [List.takeWhile_append_dropWhile] at whole
  exact whole.symm

private theorem scanSign_of_digits (digits : text.takeWhile isDigit ≠ []) :
    scanSign text = (.absent, text) := by
  unfold scanSign
  split
  · exact absurd rfl digits
  · exact absurd rfl digits
  · rfl

/-- A plus may be left out before a number, or taken for one of its characters. -/
theorem numeral?_plus (rest : List Char) : numeral? ('+' :: rest) = numeral? rest := by
  have signed : scanSign ('+' :: rest) = (.plus, rest.dropWhile isInnerBlank) := rfl
  by_cases digits : (rest.dropWhile isInnerBlank).takeWhile isDigit = []
  · refine numeral?_of_unscanned ?_
    unfold Literal.scan?
    rw [signed]
    dsimp only
    rw [if_pos digits]
  · have unsigned := scanSign_of_digits digits
    rw [← numeral?_dropWhile rest]
    have behind : ∃ tail more,
        Literal.scan? ('+' :: rest) =
          some (⟨.plus, (rest.dropWhile isInnerBlank).takeWhile isDigit, tail⟩, more) ∧
        Literal.scan? (rest.dropWhile isInnerBlank) =
          some (⟨.absent, (rest.dropWhile isInnerBlank).takeWhile isDigit, tail⟩, more) := by
      unfold Literal.scan?
      rw [unsigned, signed]
      dsimp only
      rw [if_neg digits, if_neg digits]
      exact ⟨_, _, rfl, rfl⟩
    obtain ⟨tail, more, plus, plain⟩ := behind
    rw [numeral?_of_scan? plus, numeral?_of_scan? plain, outcome_plus]

/-- The tokens that may stand between the numbers of a literal. -/
def marks : List Terminal :=
  [.opening, .closing, .plus, .word, .star, .x, .y, .z, .equals]

private theorem not_begins_of_isLetter {c : Char} (letter : isLetter c = true) :
    Terminal.number.begins c = false :=
  Grammar.Canonical.openers_not_letter letter .number (by decide)

private theorem not_begins_mark {t : Terminal} (listed : t ∈ marks) (other : t ≠ .plus)
    (fits : Token.Fits ⟨t, text⟩) : ∀ c ∈ text, Terminal.number.begins c = false := by
  by_cases word : t = .word
  · subst word
    unfold Token.Fits Terminal.match? at fits
    simp only [Terminal.pattern, Pattern.match?] at fits
    have whole : text.takeWhile isLetter = text := by
      refine (List.takeWhile_prefix isLetter).eq_of_length ?_
      split at fits
      · cases fits
      · rename_i count taken
        exact taken.trans (Option.some.inj fits)
    intro c member
    rw [← whole] at member
    exact not_begins_of_isLetter (List.all_eq_true.mp List.all_takeWhile c member)
  · have table : ∀ t ∈ marks, t ≠ .plus → t ≠ .word → t.spellings ≠ [] ∧
        ∀ spelling ∈ t.spellings,
          (spelling.toList.all fun c => !Terminal.number.begins c) = true := by decide
    obtain ⟨some, spelled⟩ := table t listed other word
    have solid := spelled _ (fits.spelled (pattern_of_spellings some))
    rw [String.toList_ofList] at solid
    intro c member
    simpa using List.all_eq_true.mp solid c member

/-- Marks of literals hold no numbers. -/
theorem numeral?_drop {t : Terminal} (listed : t ∈ marks) (found : t.match? text = some n) :
    numeral? (text.drop n) = numeral? text := by
  have fits := Token.fits_of_match? found
  conv => rhs; rw [← List.take_append_drop n text]
  by_cases plus : t = .plus
  · subst plus
    have spelled := fits.spelled rfl
    rw [List.mem_singleton] at spelled
    have front : text.take n = ['+'] := by
      rw [← String.toList_ofList (l := text.take n), spelled]
      rfl
    rw [front, List.singleton_append, numeral?_plus]
  · exact (numeral?_append _ (not_begins_mark listed plus fits)).symm

/-- A number token is the first number of its text. -/
theorem numeral?_number (found : Terminal.number.match? text = some n) :
    numeral? text = some
      (Construct.number.outcome [some (.text (String.ofList (text.take n)))], text.drop n) := by
  simp only [Terminal.match?, Terminal.pattern, Pattern.match?, Option.map_eq_some_iff] at found
  obtain ⟨⟨literal, rest⟩, scanned, rfl⟩ := found
  obtain ⟨w, rfl, whole⟩ := exists_numeral scanned
  have size : (w ++ rest).length - rest.length = w.length := by simp
  rw [size, List.take_left, List.drop_left, numeral?_of_scan? scanned]
  have token : Literal.ofText? (String.ofList w) = some literal :=
    Literal.ofText?_eq_some.mpr whole
  have value : Construct.number.outcome [some (.text (String.ofList w))] = literal.outcome := by
    change ((Construct.number.computation? [.text (String.ofList w)]).bind _) = _
    unfold Construct.computation?
    dsimp only
    rw [token]
    change (literal.value >>= _).result.toOption = _
    rw [toOption_bind]
    unfold Literal.outcome
    cases literal.value.result <;> rfl
  rw [value]

end SolidGeometry
