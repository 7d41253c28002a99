import SolidGeometry.Proofs.Grammar.Readings

namespace SolidGeometry.Grammar.Canonical
open Number

variable {text rest : List Char}

def excess (text : List Char) : Int := text.count ')' - text.count '('

theorem excess_cons (c : Char) (rest : List Char) :
    excess (c :: rest) = excess rest + (if c = ')' then 1 else if c = '(' then -1 else 0) := by
  unfold excess
  rw [List.count_cons, List.count_cons]
  by_cases closing : c = ')'
  · subst closing
    simp
    omega
  · by_cases opening : c = '('
    · subst opening
      simp
      omega
    · simp [closing, opening]

@[simp] theorem excess_nil : excess [] = 0 := rfl

@[simp] theorem excess_close (rest : List Char) : excess (')' :: rest) = excess rest + 1 := by
  rw [excess_cons]
  rfl

@[simp] theorem excess_open (rest : List Char) : excess ('(' :: rest) = excess rest - 1 := by
  rw [excess_cons]
  rfl

/-- Other characters do not count. -/
theorem excess_other {c : Char} (opening : c ≠ '(') (closing : c ≠ ')') (rest : List Char) :
    excess (c :: rest) = excess rest := by
  rw [excess_cons, if_neg closing, if_neg opening, Int.add_zero]

theorem excess_of_others {text : List Char} (others : ∀ c ∈ text, c ≠ '(' ∧ c ≠ ')')
    (rest : List Char) : excess (text ++ rest) = excess rest := by
  induction text with
  | nil => rfl
  | cons c more ih =>
    rw [List.cons_append, excess_other (others c (by simp)).1 (others c (by simp)).2]
    exact ih fun d member => others d (List.mem_cons_of_mem c member)

@[simp] theorem excess_blank (rest : List Char) : excess (' ' :: rest) = excess rest :=
  excess_other (by decide) (by decide) rest

@[simp] theorem excess_skip (text : List Char) : excess (skip text) = excess text := by
  have parts := List.takeWhile_append_dropWhile (p := isSeparator) (l := text)
  have others : ∀ c ∈ text.takeWhile isSeparator, c ≠ '(' ∧ c ≠ ')' := by
    intro c member
    have separator : isSeparator c = true := List.all_eq_true.mp List.all_takeWhile c member
    constructor <;> rintro rfl <;> exact absurd separator (by decide)
  calc excess (skip text) = excess (text.takeWhile isSeparator ++ skip text) :=
        (excess_of_others others _).symm
    _ = excess text := congrArg excess parts

@[simp] theorem excess_numeral (w : Numeral) (rest : List Char) :
    excess (w.text ++ rest) = excess rest :=
  excess_of_others w.bracketless rest

theorem excess_name {t : Terminal} (head : t ∈ heads) (name : Name t) (rest : List Char) :
    excess (name.text.toList ++ rest) = excess rest := by
  have table : ∀ t ∈ heads, ∀ text ∈ t.spellings,
      text.toList.all (fun c => c != '(' && c != ')') = true := by decide
  have others := List.all_eq_true.mp (table t head name.text name.listed)
  exact excess_of_others (fun c member => by simpa using others c member) rest

@[simp] theorem Triple.excess_write (v : Triple) (rest : List Char) :
    excess (v.write rest) = excess rest := by
  have separators : ∀ rest, excess (',' :: ' ' :: rest) = excess rest := fun rest =>
    (excess_other (by decide) (by decide) _).trans (excess_blank rest)
  simp [Triple.write, separators]

@[simp] theorem Triple.excess_writeLinked (v : Triple) {parameter : Char}
    (letter : parameter = 's' ∨ parameter = 't') (rest : List Char) :
    excess (v.writeLinked parameter rest) = excess rest := by
  have plus : ∀ rest, excess ('+' :: rest) = excess rest := excess_other (by decide) (by decide)
  have star : ∀ rest, excess ('*' :: rest) = excess rest := excess_other (by decide) (by decide)
  have word : ∀ rest, excess (parameter :: rest) = excess rest := by
    rcases letter with rfl | rfl <;> exact excess_other (by decide) (by decide)
  simp [Triple.writeLinked, plus, star, word]

@[simp] theorem Literal.excess_write (l : Literal) (rest : List Char) :
    excess (l.write rest) = excess rest := by
  have mark : ∀ c ∈ ['x', 'y', 'z', '=', '0'], ∀ rest, excess (c :: rest) = excess rest := by
    intro c member rest
    refine excess_other ?_ ?_ rest <;> rintro rfl <;> exact absurd member (by decide)
  cases l with
  | vector v => simp [Literal.write]
  | line base direction => simp [Literal.write]
  | span base first second => simp [Literal.write]
  | plane a b c e =>
    simp [Literal.write, mark 'x', mark 'y', mark 'z', mark '=', mark '0']

private theorem excess_call {t : Terminal} (head : t ∈ heads) (name : Name t) {body : List Char}
    (same : excess body = excess rest) :
    excess (name.text.toList ++ ' ' :: body) = excess rest :=
  (excess_name head name _).trans ((excess_blank body).trans same)

mutual

theorem Call.excess_write (rest : List Char) : ∀ c : Call, excess (c.write rest) = excess rest
  | .vectorFunction name operand => excess_call (by decide) name (operand.excess_write rest)
  | .pairFunction name first second => excess_call (by decide) name (by
    rw [first.excess_write, excess_blank, second.excess_write])
  | .pointOnLine name operand t => excess_call (by decide) name (by
    rw [operand.excess_write, excess_blank, excess_numeral])
  | .planeFunction name operand => excess_call (by decide) name (operand.excess_write rest)
  | .pointOnPlane name operand s t => excess_call (by decide) name (by
    rw [operand.excess_write, excess_blank, excess_numeral, excess_blank, excess_numeral])
  | .lineThroughPoints name first second => excess_call (by decide) name (by
    rw [first.excess_write, excess_blank, second.excess_write])
  | .planeThroughThree name first second third => excess_call (by decide) name (by
    rw [first.excess_write, excess_blank, second.excess_write, excess_blank, third.excess_write])
  | .planeThroughTwo name first second => excess_call (by decide) name (by
    rw [first.excess_write, excess_blank, second.excess_write])
  | .generic name first second => excess_call (by decide) name (by
    rw [first.excess_write, excess_blank, second.excess_write])

theorem Operand.excess_write {slot : Slot} (rest : List Char) :
    ∀ o : Operand slot, excess (o.write rest) = excess rest
  | .literal l _ => l.excess_write rest
  | .nested c => by
    rw [Operand.write, excess_open, c.excess_write, excess_close]
    omega

end

/-- Whole items one behind another, with blanks among them. The text of a call stands behind its
bracket, and numbers, other than those in vectors and planes, at its end. -/
inductive Flat : List Char → Prop where
  | nil : Flat []
  | blank {rest : List Char} (later : Flat rest) : Flat (' ' :: rest)
  | vector {rest : List Char} (v : Triple) (later : Flat rest) : Flat (v.write rest)
  | linked {rest : List Char} (v : Triple) {parameter : Char}
      (letter : parameter = 's' ∨ parameter = 't') (later : Flat rest) :
      Flat ('+' :: ' ' :: parameter :: ' ' :: '*' :: ' ' :: v.write rest)
  | plane {rest : List Char} (a : PlainNumeral) (b c e : SignedNumeral) (later : Flat rest) :
      Flat ((Literal.plane a b c e).write rest)
  | nested {rest : List Char} {head : Terminal} (listed : head ∈ heads) (name : Name head)
      (later : Flat rest) : Flat ('(' :: (name.text.toList ++ ' ' :: rest))
  | close {rest : List Char} (later : Flat rest) : Flat (')' :: rest)
  | number {rest : List Char} (t : PlainNumeral) (closes : Closes rest) (later : Flat rest) :
      Flat (t.text ++ rest)
  | numbers {rest : List Char} (s t : PlainNumeral) (closes : Closes rest) (later : Flat rest) :
      Flat (s.text ++ ' ' :: (t.text ++ rest))

/-- The text of a call with a flat text behind its name. -/
inductive Calling : List Char → Prop where
  | intro {rest : List Char} {head : Terminal} (listed : head ∈ heads) (name : Name head)
      (later : Flat rest) : Calling (name.text.toList ++ ' ' :: rest)

theorem Calling.nested (calling : Calling text) : Flat ('(' :: text) := by
  obtain ⟨listed, name, later⟩ := calling
  exact .nested listed name later

theorem Literal.skip_write (l : Literal) (rest : List Char) :
    skip (l.write rest) = l.write rest := by
  cases l with
  | plane a b c e => exact a.toNumeral.skip_append rfl
  | _ => rfl

theorem Flat.skip (flat : Flat text) : Flat (skip text) := by
  induction flat with
  | nil => exact .nil
  | blank _ ih => exact ih
  | vector v later _ => exact .vector v later
  | linked v letter later _ => exact .linked v letter later
  | plane a b c e later _ =>
    rw [Literal.skip_write]
    exact .plane a b c e later
  | nested listed name later _ => exact .nested listed name later
  | close later _ => exact .close later
  | number t closes later _ =>
    rw [t.toNumeral.skip_append closes.ends]
    exact .number t closes later
  | numbers s t closes later _ =>
    rw [s.toNumeral.skip_append rfl]
    exact .numbers s t closes later

theorem Triple.flat_linked (v : Triple) {parameter : Char}
    (letter : parameter = 's' ∨ parameter = 't') (flat : Flat rest) :
    Flat (v.writeLinked parameter rest) :=
  .blank (.linked v letter flat)

theorem Literal.flat (l : Literal) (flat : Flat rest) : Flat (l.write rest) := by
  cases l with
  | vector v => exact .vector v flat
  | line base direction => exact .vector base (direction.flat_linked (.inr rfl) flat)
  | span base first second =>
    exact .vector base (first.flat_linked (.inl rfl) (second.flat_linked (.inr rfl) flat))
  | plane a b c e => exact .plane a b c e flat

mutual

theorem Call.calling {rest : List Char} (closes : Closes rest) (flat : Flat rest) :
    ∀ c : Call, Calling (c.write rest)
  | .vectorFunction name operand => .intro (by decide) name (operand.flat flat)
  | .pairFunction name first second =>
    .intro (by decide) name (first.flat (.blank (second.flat flat)))
  | .pointOnLine name operand t =>
    .intro (by decide) name (operand.flat (.blank (.number t closes flat)))
  | .planeFunction name operand => .intro (by decide) name (operand.flat flat)
  | .pointOnPlane name operand s t =>
    .intro (by decide) name (operand.flat (.blank (.numbers s t closes flat)))
  | .lineThroughPoints name first second =>
    .intro (by decide) name (first.flat (.blank (second.flat flat)))
  | .planeThroughThree name first second third =>
    .intro (by decide) name (first.flat (.blank (second.flat (.blank (third.flat flat)))))
  | .planeThroughTwo name first second =>
    .intro (by decide) name (first.flat (.blank (second.flat flat)))
  | .generic name first second =>
    .intro (by decide) name (first.flat (.blank (second.flat flat)))

theorem Operand.flat {rest : List Char} {slot : Slot} (flat : Flat rest) :
    ∀ o : Operand slot, Flat (o.write rest)
  | .literal l _ => l.flat flat
  | .nested c => (c.calling (.inr ⟨rest, rfl⟩) (.close flat)).nested

end

end SolidGeometry.Grammar.Canonical
