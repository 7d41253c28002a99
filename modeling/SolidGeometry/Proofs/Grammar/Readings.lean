import SolidGeometry.Proofs.Grammar.Canonical

namespace SolidGeometry.Grammar.Canonical

variable {row : List Symbol} {text rest out : List Char}

/-- The tokens that operands and numbers begin with. -/
def openers : List Terminal := [.opening, .openNested, .number]

def isSolid : Symbol → Bool
  | .terminal t => openers.contains t
  | .nonterminal n => n != .start && n != .call && n != .link

/-- A text at which no operand and no number begins. -/
def Startless (text : List Char) : Prop := ∀ t ∈ openers, t.match? (skip text) = none

/-- A text at which no link begins. -/
def Linkless (text : List Char) : Prop :=
  ∀ t ∈ [Terminal.plus, .word, .star], t.match? (skip text) = none

/-- The end of a text, or of the call in it. -/
def Closes (text : List Char) : Prop := text = [] ∨ ∃ more, text = ')' :: more

theorem front_isSolid {n : Nonterminal} {r : Rule} (member : r ∈ n.rules)
    (solid : isSolid (.nonterminal n) = true) :
    ∃ s ∈ r.symbols.head?, isSolid s = true := by
  revert r
  cases n <;> revert solid <;> decide +kernel

/-- What is solid reads nothing where nothing begins. -/
theorem not_startless (d : Derivation row) {s : Symbol} (front : row.head? = some s)
    (solid : isSolid s = true) (cut : Cut text d.tokens out) : ¬ Startless text := by
  intro startless
  induction d generalizing text s out with
  | nil => cases front
  | token t spelling later ih =>
    cases front
    cases cut with
    | cons found after =>
      rw [startless t (List.contains_iff_mem.mp solid)] at found
      cases found
  | rule r member parts later parts_ih later_ih =>
    cases front
    obtain ⟨middle, inner, _⟩ := cut.split
    obtain ⟨s, first, solid⟩ := front_isSolid member solid
    exact parts_ih first solid inner startless

theorem Startless.of_begins {c : Char} {more : List Char} (ahead : skip text = c :: more)
    (none : ∀ t ∈ openers, t.begins c = false) : Startless text := by
  intro t member
  rw [ahead]
  exact match?_of_not_begins more (none t member)

theorem Linkless.of_begins {c : Char} {more : List Char} (ahead : skip text = c :: more)
    (none : ∀ t ∈ [Terminal.plus, .word, .star], t.begins c = false) : Linkless text := by
  intro t member
  rw [ahead]
  exact match?_of_not_begins more (none t member)

theorem startless_close (more : List Char) : Startless (')' :: more) :=
  .of_begins rfl (by decide)

theorem linkless_close (more : List Char) : Linkless (')' :: more) :=
  .of_begins rfl (by decide)

theorem Closes.startless (closes : Closes text) : Startless text := by
  rcases closes with rfl | ⟨more, rfl⟩
  · exact fun t _ => match?_nil t
  · exact startless_close more

theorem Closes.linkless (closes : Closes text) : Linkless text := by
  rcases closes with rfl | ⟨more, rfl⟩
  · exact fun t _ => match?_nil t
  · exact linkless_close more

theorem Closes.ends (closes : Closes text) : Ends text = true := by
  rcases closes with rfl | ⟨more, rfl⟩ <;> rfl

theorem Startless.skip (startless : Startless text) : Startless (skip text) := by
  intro t member
  rw [skip_skip]
  exact startless t member

/-- A rest, not an empty one, with which nothing begins and no bracket closes. -/
structure Dead (text : List Char) : Prop where
  startless : Startless text
  left : ∃ c more, skip text = c :: more ∧ c ≠ ')'

theorem Dead.skip (dead : Dead text) : Dead (skip text) := by
  obtain ⟨c, more, ahead, other⟩ := dead.left
  exact ⟨dead.startless.skip, c, more, (skip_skip text).trans ahead, other⟩

theorem Dead.of_begins {c : Char} {more : List Char} (ahead : Grammar.skip text = c :: more)
    (other : c ≠ ')') (none : ∀ t ∈ openers, t.begins c = false) : Dead text :=
  ⟨.of_begins ahead none, c, more, ahead, other⟩

/-- The number of vectors in a derivation that lack a bracket. -/
def unclosed {row : List Symbol} : Derivation row → Nat
  | .nil => 0
  | .token _ _ later => unclosed later
  | @Derivation.rule _ n r _ parts later =>
    (if n = .vector ∧ r ≠ vectorRule then 1 else 0) + unclosed parts + unclosed later

/-- A rule for anything but a vector has all brackets that its parts have. -/
theorem unclosed_rule {n : Nonterminal} {r : Rule} {member : r ∈ n.rules}
    {parts : Derivation r.symbols} {later : Derivation row} (other : n ≠ .vector)
    (none : unclosed parts = 0) : unclosed (.rule r member parts later) = unclosed later := by
  simp [unclosed, other, none]

@[simp] theorem unclosed_numeral (w : Numeral) (later : Derivation row) :
    unclosed (Numeral.derive w later) = unclosed later := by
  simp [Numeral.derive, unclosed]

@[simp] theorem Triple.unclosed_derive (v : Triple) (later : Derivation row) :
    unclosed (v.derive later) = unclosed later := by
  simp [Triple.derive, unclosed]

@[simp] theorem Triple.unclosed_deriveLinked (v : Triple) (parameter : Char)
    (later : Derivation row) : unclosed (v.deriveLinked parameter later) = unclosed later := by
  simp [Triple.deriveLinked, unclosed]

@[simp] theorem Literal.unclosed_derive (l : Literal) (later : Derivation row) :
    unclosed (l.derive later) = unclosed later := by
  cases l with
  | vector v => exact v.unclosed_derive later
  | line base direction =>
    exact unclosed_rule nofun
      ((base.unclosed_derive _).trans (direction.unclosed_deriveLinked 't' .nil))
  | span base first second =>
    exact unclosed_rule nofun ((base.unclosed_derive _).trans
      ((first.unclosed_deriveLinked 's' _).trans (second.unclosed_deriveLinked 't' .nil)))
  | plane a b c e =>
    exact unclosed_rule nofun ((unclosed_numeral a.toNumeral _).trans
      ((unclosed_numeral b.toNumeral _).trans ((unclosed_numeral c.toNumeral _).trans
        (unclosed_numeral e.toNumeral _))))

theorem read_token {t : Terminal} {w : List Char} {d : Derivation (.terminal t :: row)}
    (ahead : skip text = w ++ rest) (found : t.match? (w ++ rest) = some w.length)
    (cut : Cut text d.tokens out) :
    ∃ later, d = .token t w later ∧ Cut rest later.tokens out := by
  cases d with
  | token t spelling later =>
    cases cut with
    | cons taken after =>
      rw [ahead] at taken after ⊢
      rw [found] at taken
      cases taken
      rw [List.drop_left] at after
      exact ⟨later, by rw [List.take_left], after⟩

theorem not_read_token {t : Terminal} {d : Derivation (.terminal t :: row)}
    (absent : t.match? (skip text) = none) : ¬ Cut text d.tokens out := by
  intro cut
  cases d with
  | token t spelling later =>
    cases cut with
    | cons taken after =>
      rw [absent] at taken
      cases taken

theorem mem_rules_number {r : Rule} (member : r ∈ Nonterminal.number.rules) : r = numberRule := by
  revert r
  decide

theorem read_numeral (w : Numeral) {d : Derivation (.nonterminal .number :: row)}
    (ahead : skip text = w.text ++ rest) (ends : Ends rest = true) (cut : Cut text d.tokens out) :
    ∃ later, d = Numeral.derive w later ∧ Cut rest later.tokens out := by
  cases d with
  | rule r member parts later =>
    obtain ⟨middle, inner, outer⟩ := cut.split
    obtain rfl := mem_rules_number member
    obtain ⟨last, rfl, ended⟩ := read_token ahead (w.match?_append ends) inner
    cases last
    cases ended
    exact ⟨later, rfl, outer.of_skip (skip_skip _)⟩

theorem not_read_number {d : Derivation (.nonterminal .number :: row)} {c : Char}
    {more : List Char} (ahead : skip text = c :: more) (other : Terminal.number.begins c = false) :
    ¬ Cut text d.tokens out := by
  intro cut
  cases d with
  | rule r member parts later =>
    obtain ⟨middle, inner, _⟩ := cut.split
    obtain rfl := mem_rules_number member
    refine not_read_token (d := parts) ?_ inner
    rw [ahead]
    exact match?_of_not_begins more other

theorem mem_rules_vector {r : Rule} (member : r ∈ Nonterminal.vector.rules) :
    r = vectorRule ∨
    r = ⟨1, .vector, [.terminal .opening, .nonterminal .number, .nonterminal .number,
      .nonterminal .number], some .vector⟩ ∨
    ∃ more, r.symbols =
      .nonterminal .number :: .nonterminal .number :: .nonterminal .number :: more := by
  have table : ∀ r ∈ Nonterminal.vector.rules, r = vectorRule ∨
      r = ⟨1, .vector, [.terminal .opening, .nonterminal .number, .nonterminal .number,
        .nonterminal .number], some .vector⟩ ∨
      r.symbols = .nonterminal .number :: .nonterminal .number :: .nonterminal .number ::
        r.symbols.drop 3 := by decide
  rcases table r member with whole | short | bare
  · exact .inl whole
  · exact .inr (.inl short)
  · exact .inr (.inr ⟨_, bare⟩)

/-- The three numbers of a vector, up to the bracket that closes it. -/
private theorem read_coordinates (v : Triple)
    {d : Derivation (.nonterminal .number :: .nonterminal .number :: .nonterminal .number :: row)}
    (ahead : skip text = v.x.text ++ ',' :: ' ' :: (v.y.text ++ ',' :: ' ' ::
      (v.z.text ++ ')' :: rest)))
    (cut : Cut text d.tokens out) :
    ∃ later, d = Numeral.derive v.x.toNumeral (Numeral.derive v.y.toNumeral
      (Numeral.derive v.z.toNumeral later)) ∧ Cut (')' :: rest) later.tokens out := by
  obtain ⟨second, rfl, behind_x⟩ := read_numeral v.x.toNumeral ahead rfl cut
  obtain ⟨third, rfl, behind_y⟩ :=
    read_numeral v.y.toNumeral (v.y.toNumeral.skip_append rfl) rfl behind_x.past_comma
  obtain ⟨later, rfl, behind_z⟩ :=
    read_numeral v.z.toNumeral (v.z.toNumeral.skip_append rfl) rfl behind_y.past_comma
  exact ⟨later, rfl, behind_z⟩

/-- A vector is read in full, or without the bracket that closes it. -/
theorem Triple.reads (v : Triple) {d : Derivation (.nonterminal .vector :: row)}
    (ahead : skip text = v.write rest) (cut : Cut text d.tokens out) :
    (∃ later, d = v.derive later ∧ Cut rest later.tokens out) ∨
      ∃ later : Derivation row, unclosed d = unclosed later + 1 ∧
        Cut (')' :: rest) later.tokens out := by
  cases d with
  | rule r member parts later =>
    obtain ⟨middle, inner, outer⟩ := cut.split
    rcases mem_rules_vector member with rfl | rfl | ⟨more, bare⟩
    · obtain ⟨numbers, rfl, coordinates⟩ :=
        read_token (t := .opening) (w := ['(']) ahead rfl inner
      obtain ⟨closer, rfl, closes⟩ :=
        read_coordinates v (v.x.toNumeral.skip_append rfl) coordinates
      obtain ⟨last, rfl, ended⟩ := read_token (t := .closing) (w := [')']) rfl rfl closes
      cases last
      cases ended
      exact .inl ⟨later, rfl, outer.of_skip (skip_skip _)⟩
    · obtain ⟨numbers, rfl, coordinates⟩ :=
        read_token (t := .opening) (w := ['(']) ahead rfl inner
      obtain ⟨last, rfl, ended⟩ :=
        read_coordinates v (v.x.toNumeral.skip_append rfl) coordinates
      cases last
      cases ended
      refine .inr ⟨later, ?_, outer⟩
      exact Nat.add_comm 1 (unclosed later)
    · cases r
      subst bare
      exact absurd inner (not_read_number ahead (by decide))

theorem not_read_vector_close {more : List Char} {d : Derivation (.nonterminal .vector :: row)} :
    ¬ Cut (')' :: more) d.tokens out :=
  fun cut => not_startless d rfl (by decide) cut (startless_close more)

/-- The rows of links that leave something out. -/
def partialLinks : List (List Symbol) :=
  [[.terminal .plus, .terminal .word], [.terminal .plus, .terminal .star], [.terminal .plus],
    [.terminal .word, .terminal .star], [.terminal .word], [.terminal .star], []]

theorem mem_rules_link {r : Rule} (member : r ∈ Nonterminal.link.rules) :
    r = linkRule ∨ r.symbols ∈ partialLinks := by
  revert r
  decide

/-- Where no link begins, a link is empty. -/
theorem read_no_link {d : Derivation (.nonterminal .link :: row)} (linkless : Linkless text)
    (cut : Cut text d.tokens out) :
    ∃ later : Derivation row, unclosed d = unclosed later ∧ Cut text later.tokens out := by
  cases d with
  | rule r member parts later =>
    obtain ⟨middle, inner, outer⟩ := cut.split
    have front : ∀ r ∈ Nonterminal.link.rules,
        (∃ t ∈ [Terminal.plus, .word, .star], r.symbols.head? = some (.terminal t)) ∨
          r.symbols = [] := by decide
    obtain ⟨order, origin, symbols, construct⟩ := r
    rcases front _ member with ⟨t, listed, first⟩ | rfl
    · cases symbols with
      | nil => cases first
      | cons s more =>
        cases first
        exact absurd inner (not_read_token (linkless t listed))
    · cases parts
      cases inner
      exact ⟨later, by simp [unclosed], outer.of_skip (skip_skip _)⟩

theorem startless_linked {parameter : Char} (letter : parameter = 's' ∨ parameter = 't')
    (more : List Char) : Startless ('+' :: ' ' :: parameter :: more) := by
  intro t member
  simp only [openers, List.mem_cons, List.not_mem_nil, or_false] at member
  rcases letter with rfl | rfl <;> rcases member with rfl | rfl | rfl <;> rfl

private theorem skip_parameter {parameter : Char} (letter : parameter = 's' ∨ parameter = 't')
    (more : List Char) : skip (parameter :: more) = parameter :: more := by
  rcases letter with rfl | rfl <;> rfl

private theorem match?_parameter {parameter : Char} (letter : parameter = 's' ∨ parameter = 't')
    (more : List Char) : Terminal.word.match? (parameter :: ' ' :: more) = some 1 := by
  have isLetter : isLetter parameter = true := by rcases letter with rfl | rfl <;> rfl
  exact match?_word isLetter _

private theorem not_begins_parameter {parameter : Char}
    (letter : parameter = 's' ∨ parameter = 't') :
    ∀ t ∈ [Terminal.opening, .openNested, .number, .star], t.begins parameter = false := by
  rcases letter with rfl | rfl <;> decide

/-- A row that leaves out a part of a link leaves the link where no vector begins, or does not begin
it at all. -/
private theorem not_read_partial_link {parameter : Char}
    (letter : parameter = 's' ∨ parameter = 't') {symbols : List Symbol}
    (listed : symbols ∈ partialLinks) {parts : Derivation symbols} {middle more : List Char}
    (ahead : skip text = '+' :: ' ' :: parameter :: ' ' :: '*' :: more)
    (inner : Cut text parts.tokens middle) {d : Derivation (.nonterminal .vector :: row)} :
    ¬ Cut middle d.tokens out := by
  intro outer
  have stuck : ¬ Startless middle := fun startless =>
    not_startless d rfl (by decide) outer startless
  have silent := not_begins_parameter letter
  simp only [partialLinks, List.mem_cons, List.not_mem_nil, or_false] at listed
  rcases listed with rfl | rfl | rfl | rfl | rfl | rfl | rfl
  · obtain ⟨second, rfl, behind_plus⟩ := read_token (t := .plus) (w := ['+']) ahead rfl inner
    obtain ⟨last, rfl, behind_word⟩ := read_token (t := .word) (w := [parameter])
      (skip_parameter letter _) (match?_parameter letter _) behind_plus.past_blank
    cases last
    cases behind_word
    exact stuck (.of_begins rfl (by decide))
  · obtain ⟨second, rfl, behind_plus⟩ := read_token (t := .plus) (w := ['+']) ahead rfl inner
    refine absurd behind_plus.past_blank (not_read_token ?_)
    rw [skip_parameter letter]
    exact match?_of_not_begins _ (silent _ (by decide))
  · obtain ⟨last, rfl, behind_plus⟩ := read_token (t := .plus) (w := ['+']) ahead rfl inner
    cases last
    cases behind_plus
    refine stuck (.of_begins ((skip_skip _).trans (skip_parameter letter _)) fun t opener => ?_)
    exact silent t (List.mem_append_left [Terminal.star] opener)
  · exact absurd inner (not_read_token (by rw [ahead]; rfl))
  · exact absurd inner (not_read_token (by rw [ahead]; rfl))
  · exact absurd inner (not_read_token (by rw [ahead]; rfl))
  · cases parts
    cases inner
    rw [ahead] at stuck
    exact stuck (startless_linked letter _)

/-- A link that is written out is read in full. -/
theorem Triple.reads_linked (v : Triple) {parameter : Char}
    (letter : parameter = 's' ∨ parameter = 't')
    {d : Derivation (.nonterminal .link :: .nonterminal .vector :: row)}
    (ahead : skip text = skip (v.writeLinked parameter rest)) (cut : Cut text d.tokens out) :
    (∃ later, d = v.deriveLinked parameter later ∧ Cut rest later.tokens out) ∨
      ∃ later : Derivation row, unclosed d = unclosed later + 1 ∧
        Cut (')' :: rest) later.tokens out := by
  cases d with
  | rule r member parts vector =>
    obtain ⟨middle, inner, outer⟩ := cut.split
    rcases mem_rules_link member with rfl | other
    · obtain ⟨second, rfl, behind_plus⟩ := read_token (t := .plus) (w := ['+']) ahead rfl inner
      obtain ⟨third, rfl, behind_word⟩ := read_token (t := .word) (w := [parameter])
        (skip_parameter letter _) (match?_parameter letter _) behind_plus.past_blank
      obtain ⟨last, rfl, behind_star⟩ :=
        read_token (t := .star) (w := ['*']) rfl rfl behind_word.past_blank
      cases last
      cases behind_star
      have behind : Cut (v.write rest) vector.tokens out := outer.of_skip (skip_skip _)
      rcases v.reads rfl behind with ⟨later, rfl, closed⟩ | ⟨later, short, left⟩
      · exact .inl ⟨later, rfl, closed⟩
      · refine .inr ⟨later, ?_, left⟩
        exact (Nat.zero_add _).trans short
    · exact absurd outer (not_read_partial_link letter other ahead inner)

end SolidGeometry.Grammar.Canonical
