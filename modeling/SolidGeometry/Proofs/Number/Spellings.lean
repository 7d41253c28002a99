import SolidGeometry.Grammar.Token
import Mathlib.Data.List.TakeWhile

namespace SolidGeometry.Number

/-- Decimal digits, at least one. -/
structure AreDigits (digits : List Char) : Prop where
  ne_nil : digits ≠ []
  all : ∀ c ∈ digits, isDigit c = true

/-- There are digits behind the mark of a denominator or of decimal places. -/
def Tail.Proper : Tail → Prop
  | absent => True
  | denominator digits => AreDigits digits
  | places digits => AreDigits digits

/-- A literal with the blanks behind its sign. -/
structure SpacedLiteral extends Literal where
  blanks : List Char
  blank : ∀ c ∈ blanks, isInnerBlank c = true
  unspaced : sign = .absent → blanks = []
  areDigits : AreDigits digits
  proper : tail.Proper

namespace SpacedLiteral

def text (l : SpacedLiteral) : List Char :=
  l.sign.spelling ++ l.blanks ++ l.digits ++ l.tail.spelling

/-- A literal with no blanks. -/
def plain (literal : Literal) (areDigits : AreDigits literal.digits)
    (proper : literal.tail.Proper) : SpacedLiteral where
  toLiteral := literal
  blanks := []
  blank := List.forall_mem_nil _
  unspaced := fun _ => rfl
  areDigits := areDigits
  proper := proper

theorem text_plain {literal : Literal} (areDigits : AreDigits literal.digits)
    (proper : literal.tail.Proper) : (plain literal areDigits proper).text = literal.spelling := by
  rw [text, plain, List.append_nil]
  rfl

end SpacedLiteral

theorem isInnerBlank_of_isDigit {c : Char} (digit : isDigit c = true) : isInnerBlank c = false := by
  refine Bool.eq_false_iff.mpr fun blank => ?_
  simp only [isInnerBlank, Bool.or_eq_true, beq_iff_eq] at blank
  rcases blank with rfl | rfl <;> cases digit

theorem AreDigits.of_takeWhile {text : List Char} (some : text.takeWhile isDigit ≠ []) :
    AreDigits (text.takeWhile isDigit) :=
  ⟨some, fun c member => List.all_eq_true.mp List.all_takeWhile c member⟩

namespace AreDigits

variable {digits : List Char} (areDigits : AreDigits digits)

include areDigits

theorem exists_cons : ∃ c more, digits = c :: more ∧ isDigit c = true := by
  obtain ⟨c, more, rfl⟩ := List.exists_cons_of_ne_nil areDigits.ne_nil
  exact ⟨c, more, rfl, areDigits.all c List.mem_cons_self⟩

theorem takeWhile : digits.takeWhile Number.isDigit = digits :=
  List.takeWhile_eq_self_iff.mpr areDigits.all

theorem dropWhile : digits.dropWhile Number.isDigit = [] :=
  List.dropWhile_eq_nil_iff.mpr areDigits.all

theorem append {more : List Char} (others : AreDigits more) : AreDigits (digits ++ more) :=
  ⟨List.append_ne_nil_of_left_ne_nil areDigits.ne_nil more,
    List.forall_mem_append.mpr ⟨areDigits.all, others.all⟩⟩

/-- Blanks in front of digits are dropped and the digits are kept. -/
theorem dropWhile_blanks {blanks : List Char} (blank : ∀ c ∈ blanks, isInnerBlank c = true)
    (rest : List Char) :
    (blanks ++ digits ++ rest).dropWhile isInnerBlank = digits ++ rest := by
  obtain ⟨c, more, rfl, digit⟩ := areDigits.exists_cons
  rw [List.append_assoc, List.dropWhile_append_of_pos blank, List.cons_append,
    List.dropWhile_cons_of_neg (by simp [isInnerBlank_of_isDigit digit])]

end AreDigits

theorem scanSign_of_ne {c : Char} (plus : c ≠ '+') (minus : c ≠ '-') (rest : List Char) :
    scanSign (c :: rest) = (.absent, c :: rest) := by
  unfold scanSign
  split
  · rename_i same
    exact absurd (List.cons.inj same).1 plus
  · rename_i same
    exact absurd (List.cons.inj same).1 minus
  · rfl

theorem scanSign_of_isDigit {c : Char} (digit : isDigit c = true) (rest : List Char) :
    scanSign (c :: rest) = (.absent, c :: rest) := by
  refine scanSign_of_ne ?_ ?_ rest <;> rintro rfl <;> cases digit

/-- A sign with its blanks is scanned up to the digits. -/
theorem SpacedLiteral.scanSign_text (l : SpacedLiteral) :
    scanSign l.text = (l.sign, l.digits ++ l.tail.spelling) := by
  have dropped := l.areDigits.dropWhile_blanks l.blank l.tail.spelling
  unfold text
  cases sign : l.sign with
  | absent =>
    obtain ⟨c, more, digits, digit⟩ := l.areDigits.exists_cons
    rw [l.unspaced sign, digits]
    exact scanSign_of_isDigit digit _
  | plus => exact congrArg (Prod.mk Sign.plus) dropped
  | minus => exact congrArg (Prod.mk Sign.minus) dropped

/-- No digits go on where a denominator or decimal places begin. -/
theorem Tail.spelling_apart (tail : Tail) :
    tail.spelling.takeWhile isDigit = [] ∧ tail.spelling.dropWhile isDigit = tail.spelling := by
  cases tail <;> exact ⟨rfl, rfl⟩

theorem scanTail_spelling {tail : Tail} (proper : tail.Proper) :
    scanTail tail.spelling = (tail, []) := by
  cases tail with
  | absent => rfl
  | denominator digits =>
    have areDigits : AreDigits digits := proper
    simp only [Tail.spelling, scanTail, areDigits.takeWhile, areDigits.dropWhile]
    rw [if_neg areDigits.ne_nil]
  | places digits =>
    have areDigits : AreDigits digits := proper
    simp only [Tail.spelling, scanTail, areDigits.takeWhile, areDigits.dropWhile]
    rw [if_neg areDigits.ne_nil]

/-- What is scanned as a sign are a sign and blanks behind it. -/
theorem exists_blanks (text : List Char) :
    ∃ blanks, (∀ c ∈ blanks, isInnerBlank c = true) ∧
      ((scanSign text).1 = .absent → blanks = []) ∧
      text = (scanSign text).1.spelling ++ blanks ++ (scanSign text).2 := by
  have front (rest : List Char) : (∀ c ∈ rest.takeWhile isInnerBlank, isInnerBlank c = true) ∧
      rest = rest.takeWhile isInnerBlank ++ rest.dropWhile isInnerBlank :=
    ⟨fun c member => List.all_eq_true.mp List.all_takeWhile c member,
      List.takeWhile_append_dropWhile.symm⟩
  unfold scanSign
  split
  · rename_i rest
    exact ⟨_, (front rest).1, nofun, congrArg ('+' :: ·) (front rest).2⟩
  · rename_i rest
    exact ⟨_, (front rest).1, nofun, congrArg ('-' :: ·) (front rest).2⟩
  · exact ⟨[], List.forall_mem_nil _, fun _ => rfl, rfl⟩

/-- What is scanned as a denominator or decimal places is a mark and digits behind it. -/
theorem scanTail_spec (text : List Char) :
    (scanTail text).1.Proper ∧ text = (scanTail text).1.spelling ++ (scanTail text).2 := by
  unfold scanTail
  split
  · split
    · exact ⟨trivial, rfl⟩
    · rename_i rest some
      exact ⟨.of_takeWhile some, congrArg ('/' :: ·) List.takeWhile_append_dropWhile.symm⟩
  · split
    · exact ⟨trivial, rfl⟩
    · rename_i rest some
      exact ⟨.of_takeWhile some, congrArg ('.' :: ·) List.takeWhile_append_dropWhile.symm⟩
  · exact ⟨trivial, rfl⟩

/-- A literal begins with a digit or a sign. -/
theorem SpacedLiteral.exists_cons (l : SpacedLiteral) :
    ∃ c more, l.text = c :: more ∧ (isDigit c = true ∨ c = '+' ∨ c = '-') := by
  unfold text
  cases sign : l.sign with
  | absent =>
    obtain ⟨c, more, digits, digit⟩ := l.areDigits.exists_cons
    rw [l.unspaced sign, digits]
    exact ⟨c, _, rfl, .inl digit⟩
  | plus => exact ⟨'+', _, rfl, .inr (.inl rfl)⟩
  | minus => exact ⟨'-', _, rfl, .inr (.inr rfl)⟩

/-- A literal is scanned to its end. -/
theorem SpacedLiteral.scan?_text (l : SpacedLiteral) :
    Literal.scan? l.text = some (l.toLiteral, []) := by
  have taken : (l.digits ++ l.tail.spelling).takeWhile isDigit = l.digits := by
    rw [List.takeWhile_append_of_pos l.areDigits.all, l.tail.spelling_apart.1, List.append_nil]
  have dropped : (l.digits ++ l.tail.spelling).dropWhile isDigit = l.tail.spelling := by
    rw [List.dropWhile_append_of_pos l.areDigits.all, l.tail.spelling_apart.2]
  unfold Literal.scan?
  rw [l.scanSign_text]
  dsimp only
  rw [taken, dropped, if_neg l.areDigits.ne_nil, scanTail_spelling l.proper]

/-- A literal with no blanks is scanned from its spelling. -/
theorem Literal.scan?_spelling {literal : Literal} (areDigits : AreDigits literal.digits)
    (proper : literal.tail.Proper) : scan? literal.spelling = some (literal, []) := by
  rw [← SpacedLiteral.text_plain areDigits proper]
  exact (SpacedLiteral.plain literal areDigits proper).scan?_text

/-- What is scanned is a literal, and the rest follows it. -/
theorem exists_spacedLiteral {text rest : List Char} {literal : Literal}
    (scanned : Literal.scan? text = some (literal, rest)) :
    ∃ l : SpacedLiteral, l.toLiteral = literal ∧ text = l.text ++ rest := by
  obtain ⟨blanks, blank, unspaced, joined⟩ := exists_blanks text
  obtain ⟨proper, behind⟩ := scanTail_spec ((scanSign text).2.dropWhile isDigit)
  unfold Literal.scan? at scanned
  dsimp only at scanned
  split at scanned
  · cases scanned
  · rename_i some
    cases scanned
    refine ⟨⟨⟨_, _, _⟩, blanks, blank, unspaced, .of_takeWhile some, proper⟩, rfl, ?_⟩
    have unsigned := List.takeWhile_append_dropWhile (p := isDigit) (l := (scanSign text).2)
    rw [behind] at unsigned
    rw [← unsigned] at joined
    exact joined.trans (by simp only [SpacedLiteral.text, List.append_assoc])

theorem Literal.ofText?_eq_some {text : List Char} {literal : Literal} :
    ofText? (String.ofList text) = some literal ↔ scan? text = some (literal, []) := by
  unfold ofText?
  rw [String.toList_ofList]
  split <;> simp_all

/-- A text that is one literal. -/
theorem exists_text {text : List Char} {literal : Literal}
    (scanned : Literal.scan? text = some (literal, [])) :
    ∃ l : SpacedLiteral, l.toLiteral = literal ∧ l.text = text := by
  obtain ⟨l, same, joined⟩ := exists_spacedLiteral scanned
  exact ⟨l, same, by rw [joined, List.append_nil]⟩

/-- The texts that are one number token are those of literals. -/
theorem match?_number_iff {text : List Char} :
    Grammar.Terminal.number.match? text = some text.length ↔ ∃ l : SpacedLiteral, l.text = text := by
  simp only [Grammar.Terminal.match?, Grammar.Terminal.pattern, Grammar.Pattern.match?,
    Option.map_eq_some_iff]
  constructor
  · rintro ⟨⟨literal, rest⟩, scanned, size⟩
    obtain ⟨l, -, rfl⟩ := exists_spacedLiteral scanned
    have none : rest = [] := by
      simp only [List.length_append] at size
      exact List.length_eq_zero_iff.mp (by omega)
    exact ⟨l, by rw [none, List.append_nil]⟩
  · rintro ⟨l, rfl⟩
    exact ⟨_, l.scan?_text, Nat.sub_zero _⟩

end SolidGeometry.Number
