import SolidGeometry.Proofs.Grammar.CanonicalSpelling
import SolidGeometry.Proofs.Grammar.PlaneReading

namespace SolidGeometry.Grammar.Canonical

variable {row : List Symbol} {text rest out : List Char}

theorem not_read_call {c : Char} {more : List Char} {d : Derivation (.nonterminal .call :: row)}
    (ahead : skip text = c :: more) (other : isLetter c = false) : ¬ Cut text d.tokens out := by
  intro cut
  cases d with
  | rule r member parts later =>
    obtain ⟨middle, inner, _⟩ := cut.split
    rw [rules_call] at member
    obtain ⟨shape, listed, rfl⟩ := List.mem_map.mp member
    refine not_read_token (d := parts) ?_ inner
    rw [ahead]
    refine match?_of_not_begins more (Bool.eq_false_iff.mpr fun begins => ?_)
    rw [isLetter_of_begins (head_mem_heads listed) begins] at other
    cases other

theorem skip_letter {c : Char} (letter : isLetter c = true) (more : List Char) :
    skip (c :: more) = c :: more := by
  have other : isSeparator c = false := by
    refine Bool.eq_false_iff.mpr fun separator => ?_
    simp only [isSeparator, Bool.or_eq_true, beq_iff_eq] at separator
    rcases separator with (rfl | rfl) | rfl <;> exact absurd letter (by decide)
  simp [skip, other]

theorem openers_not_letter {c : Char} (letter : isLetter c = true) :
    ∀ t ∈ openers, t.begins c = false := by
  intro t member
  refine Bool.eq_false_iff.mpr fun begins => ?_
  simp only [openers, List.mem_cons, List.not_mem_nil, or_false] at member
  rcases member with rfl | rfl | rfl
  · simp only [Terminal.begins, Terminal.pattern, List.any_cons, List.any_nil, Bool.or_false,
      Bool.or_eq_true, beq_iff_eq] at begins
    rcases begins with same | same | same <;> cases same <;> exact absurd letter (by decide)
  · simp only [Terminal.begins, Terminal.pattern, List.any_cons, List.any_nil, Bool.or_false,
      beq_iff_eq] at begins
    cases begins
    exact absurd letter (by decide)
  · simp only [Terminal.begins, Terminal.pattern, Bool.or_eq_true, beq_iff_eq] at begins
    rcases begins with (digit | rfl) | rfl
    · rw [not_isLetter_of_isDigit digit] at letter
      cases letter
    · exact absurd letter (by decide)
    · exact absurd letter (by decide)

theorem not_read_plane {more : List Char} {d : Derivation (.nonterminal .plane :: row)}
    (ahead : skip text = '(' :: more) : ¬ Cut text d.tokens out := by
  intro cut
  cases d with
  | rule r member parts later =>
    obtain ⟨middle, inner, _⟩ := cut.split
    obtain ⟨choice, chosen, others, _, row⟩ := mem_sequences (symbols_mem_planeParts member)
    obtain rfl := List.mem_singleton.mp chosen
    cases r
    subst row
    exact not_read_number ahead (by decide) inner

/-- A nested call does not begin like a vector: a name follows its bracket. -/
theorem not_read_bracketed {letter : Char} {more : List Char}
    {d : Derivation (.nonterminal .vector :: row)} (ahead : skip text = '(' :: letter :: more)
    (isLetter : isLetter letter = true) : ¬ Cut text d.tokens out := by
  intro cut
  have number : Terminal.number.begins letter = false := openers_not_letter isLetter _ (by decide)
  cases d with
  | rule r member parts later =>
    obtain ⟨middle, inner, _⟩ := cut.split
    rcases mem_rules_vector member with rfl | rfl | ⟨more, bare⟩
    · obtain ⟨numbers, rfl, behind⟩ := read_token (t := .opening) (w := ['(']) ahead rfl inner
      exact not_read_number (skip_letter isLetter more) number behind
    · obtain ⟨numbers, rfl, behind⟩ := read_token (t := .opening) (w := ['(']) ahead rfl inner
      exact not_read_number (skip_letter isLetter more) number behind
    · cases r
      subst bare
      exact not_read_number ahead (by decide) inner

/-- Bare numbers of a vector that follow a number. -/
private theorem read_bare (w : PlainNumeral) (ahead : skip text = w.text ++ rest)
    (ends : Ends rest = true) {d : Derivation (.nonterminal .vector :: row)}
    (cut : Cut text d.tokens out) :
    ∃ more middle, ∃ numbers : Derivation (.nonterminal .number :: .nonterminal .number :: more),
      Cut rest numbers.tokens middle := by
  obtain ⟨c, others, shape, begins⟩ := w.exists_cons
  have bracketless : Terminal.opening.begins c = false := by
    refine Bool.eq_false_iff.mpr fun opens => ?_
    simp only [Terminal.begins, Terminal.pattern, List.any_cons, List.any_nil, Bool.or_false,
      Bool.or_eq_true, beq_iff_eq] at opens
    rcases opens with same | same | same <;> cases same <;> exact absurd begins (by decide)
  have closed : ∀ {more : List Symbol} {d : Derivation (.terminal .opening :: more)}
      {out : List Char}, ¬ Cut text d.tokens out := by
    intro more d out
    refine not_read_token ?_
    rw [ahead, shape]
    exact match?_of_not_begins _ bracketless
  cases d with
  | rule r member parts later =>
    obtain ⟨middle, inner, _⟩ := cut.split
    rcases mem_rules_vector member with rfl | rfl | ⟨more, bare⟩
    · exact absurd inner closed
    · exact absurd inner closed
    · cases r
      subst bare
      obtain ⟨second, rfl, behind⟩ := read_numeral w.toNumeral ahead ends inner
      exact ⟨more, middle, second, behind⟩

/-- A plane's equation does not begin like a vector. -/
theorem not_read_vector {w : PlainNumeral} {more : List Char}
    {d : Derivation (.nonterminal .vector :: row)}
    (ahead : skip text = w.text ++ 'x' :: more) : ¬ Cut text d.tokens out := by
  intro cut
  obtain ⟨_, _, _, behind⟩ := read_bare w ahead rfl cut
  exact not_read_number rfl (by decide) behind

private theorem not_read_vector_number (t : PlainNumeral) (closes : Closes rest)
    {d : Derivation (.nonterminal .vector :: row)} (ahead : skip text = t.text ++ rest) :
    ¬ Cut text d.tokens out := by
  intro cut
  obtain ⟨_, _, second, behind⟩ := read_bare t ahead closes.ends cut
  exact not_startless second rfl (by decide) behind closes.startless

private theorem not_read_vector_numbers (s t : PlainNumeral) (closes : Closes rest)
    {d : Derivation (.nonterminal .vector :: row)}
    (ahead : skip text = s.text ++ ' ' :: (t.text ++ rest)) : ¬ Cut text d.tokens out := by
  intro cut
  obtain ⟨_, _, second, behind⟩ := read_bare s ahead rfl cut
  obtain ⟨third, rfl, behind_t⟩ := read_numeral t.toNumeral
    (t.toNumeral.skip_append closes.ends) closes.ends behind.past_blank
  exact not_startless third rfl (by decide) behind_t closes.startless

theorem flat_vector {d : Derivation (.nonterminal .vector :: row)} (flat : Flat text)
    (cut : Cut text d.tokens out) :
    ∃ middle, ∃ later : Derivation row, Flat middle ∧
      excess text + unclosed d = excess middle + unclosed later ∧ Cut middle later.tokens out := by
  induction flat with
  | nil => exact absurd (Closes.startless (.inl rfl)) (not_startless d rfl (by decide) cut)
  | blank _ ih => exact ih cut.past_blank
  | @vector rest v flat _ =>
    rcases v.reads rfl cut with ⟨later, rfl, behind⟩ | ⟨later, short, behind⟩
    · refine ⟨rest, later, flat, ?_, behind⟩
      rw [v.excess_write]
      simp
    · refine ⟨')' :: rest, later, .close flat, ?_, behind⟩
      rw [v.excess_write, excess_close, short]
      push_cast
      omega
  | linked v letter _ _ =>
    exact absurd (startless_linked letter _) (not_startless d rfl (by decide) cut)
  | plane a b c e _ _ => exact absurd cut (not_read_vector (a.toNumeral.skip_append rfl))
  | @nested rest head listed name _ _ =>
    obtain ⟨letter, more, shape, isLetter⟩ := name.exists_cons listed
    have ahead : skip ('(' :: (name.text.toList ++ ' ' :: rest)) =
        '(' :: letter :: (more ++ ' ' :: rest) := by
      rw [shape]
      rfl
    exact absurd cut (not_read_bracketed ahead isLetter)
  | close _ _ => exact absurd cut not_read_vector_close
  | number t closes _ _ =>
    exact absurd cut (not_read_vector_number t closes (t.toNumeral.skip_append closes.ends))
  | numbers s t closes _ _ =>
    exact absurd cut (not_read_vector_numbers s t closes (s.toNumeral.skip_append rfl))

/-- The symbols behind the first vector of a literal: some links, each with a vector. -/
def chainRow : Nat → List Symbol
  | 0 => []
  | m + 1 => .nonterminal .link :: .nonterminal .vector :: chainRow m

theorem linkless_numeral (w : PlainNumeral) (ahead : skip text = w.text ++ rest) :
    Linkless text := by
  obtain ⟨c, more, shape, front⟩ := w.exists_cons
  rw [shape] at ahead
  refine .of_begins (ahead.trans (List.cons_append ..)) fun t listed => ?_
  refine Bool.eq_false_iff.mpr fun begins => ?_
  simp only [List.mem_cons, List.not_mem_nil, or_false] at listed
  rcases listed with rfl | rfl | rfl
  · simp only [Terminal.begins, Terminal.pattern, List.any_cons, List.any_nil, Bool.or_false,
      beq_iff_eq] at begins
    cases begins
    exact absurd front (by decide)
  · rcases front with digit | rfl
    · exact absurd (not_isLetter_of_isDigit digit) (ne_true_of_eq_false · begins)
    · cases begins
  · simp only [Terminal.begins, Terminal.pattern, List.any_cons, List.any_nil, Bool.or_false,
      beq_iff_eq] at begins
    cases begins
    exact absurd front (by decide)

theorem linked_or_linkless (flat : Flat text) :
    (∃ (v : Triple) (parameter : Char) (rest : List Char), (parameter = 's' ∨ parameter = 't') ∧
      Flat rest ∧ excess text = excess rest ∧ skip text = skip (v.writeLinked parameter rest)) ∨
        Linkless text := by
  induction flat with
  | nil => exact .inr (Closes.linkless (.inl rfl))
  | blank _ ih => exact ih
  | vector v _ _ => exact .inr (.of_begins rfl (by decide))
  | @linked rest v parameter letter flat _ =>
    refine .inl ⟨v, parameter, rest, letter, flat, ?_, rfl⟩
    exact (excess_blank _).symm.trans (v.excess_writeLinked letter rest)
  | plane a b c e _ _ => exact .inr (linkless_numeral a (a.toNumeral.skip_append rfl))
  | nested _ _ _ _ => exact .inr (.of_begins rfl (by decide))
  | close _ _ => exact .inr (linkless_close _)
  | number t closes _ _ => exact .inr (linkless_numeral t (t.toNumeral.skip_append closes.ends))
  | numbers s t _ _ _ => exact .inr (linkless_numeral s (s.toNumeral.skip_append rfl))

theorem flat_chain {m : Nat} {d : Derivation (chainRow m)} (flat : Flat text)
    (cut : Cut text d.tokens out) : Flat out ∧ excess text + unclosed d = excess out := by
  induction m generalizing text with
  | zero =>
    cases d
    cases cut
    exact ⟨flat.skip, by simp [unclosed]⟩
  | succ m ih =>
    rcases linked_or_linkless flat with ⟨v, parameter, rest, letter, behind, same, ahead⟩ | linkless
    · rcases v.reads_linked letter ahead cut with ⟨later, rfl, after⟩ | ⟨later, short, after⟩
      · obtain ⟨ended, balance⟩ := ih behind after
        refine ⟨ended, ?_⟩
        rw [same, ← balance]
        exact congrArg (fun count : Nat => excess rest + count)
          (v.unclosed_deriveLinked parameter later)
      · obtain ⟨ended, balance⟩ := ih (.close behind) after
        have short : unclosed d = unclosed later + 1 := short
        rw [excess_close] at balance
        exact ⟨ended, by omega⟩
    · obtain ⟨vector, none, behind⟩ :
          ∃ vector : Derivation (.nonterminal .vector :: chainRow m),
            unclosed d = unclosed vector ∧ Cut text vector.tokens out := read_no_link linkless cut
      obtain ⟨middle, later, between, same, after⟩ := flat_vector flat behind
      obtain ⟨ended, balance⟩ := ih between after
      exact ⟨ended, by omega⟩

theorem flat_vectors {m : Nat} {d : Derivation (.nonterminal .vector :: chainRow m)}
    (flat : Flat text) (cut : Cut text d.tokens out) :
    Flat out ∧ excess text + unclosed d = excess out := by
  obtain ⟨middle, later, between, same, after⟩ := flat_vector flat cut
  obtain ⟨ended, balance⟩ := flat_chain between after
  exact ⟨ended, by omega⟩

theorem flat_plane {d : Derivation [.nonterminal .plane]} (flat : Flat text)
    (cut : Cut text d.tokens out) :
    Dead out ∨ Flat out ∧ excess text + unclosed d = excess out := by
  induction flat with
  | nil => exact absurd (Closes.startless (.inl rfl)) (not_startless d rfl (by decide) cut)
  | blank _ ih => exact ih cut.past_blank
  | vector v _ _ => exact absurd cut (not_read_plane rfl)
  | linked v letter _ _ =>
    exact absurd (startless_linked letter _) (not_startless d rfl (by decide) cut)
  | @plane rest a b c e flat _ =>
    rcases reads_plane a b c e (Literal.skip_write _ _) cut with
      ⟨last, rfl, ended⟩ | ⟨middle, last, _, dead, ended⟩
    · cases last
      cases ended
      refine .inr ⟨flat.skip, ?_⟩
      rw [Literal.excess_write, excess_skip]
      have none : unclosed (Literal.derive .nil (.plane a b c e)) = 0 := Literal.unclosed_derive _ _
      exact (congrArg (fun count : Nat => excess rest + count) none).trans (Int.add_zero _)
    · cases last
      cases ended
      exact .inl dead.skip
  | nested _ _ _ _ => exact absurd cut (not_read_plane rfl)
  | close _ _ => exact absurd (startless_close _) (not_startless d rfl (by decide) cut)
  | number t closes _ _ =>
    exact absurd cut (not_read_plane_number t closes (t.toNumeral.skip_append closes.ends))
  | numbers s t closes _ _ =>
    exact absurd cut (not_read_plane_numbers s t closes (s.toNumeral.skip_append rfl))

theorem flat_number {d : Derivation [.nonterminal .number]} (flat : Flat text)
    (cut : Cut text d.tokens out) :
    Dead out ∨ Flat out ∧ excess text + unclosed d = excess out := by
  induction flat with
  | nil => exact absurd (Closes.startless (.inl rfl)) (not_startless d rfl (by decide) cut)
  | blank _ ih => exact ih cut.past_blank
  | vector v _ _ => exact absurd cut (not_read_number rfl (by decide))
  | linked v letter _ _ =>
    exact absurd (startless_linked letter _) (not_startless d rfl (by decide) cut)
  | plane a b c e _ _ =>
    obtain ⟨last, rfl, ended⟩ := read_numeral a.toNumeral (a.toNumeral.skip_append rfl) rfl cut
    cases last
    cases ended
    exact .inl (.of_begins rfl (by decide) (by decide))
  | nested _ _ _ _ => exact absurd cut (not_read_number rfl (by decide))
  | close _ _ => exact absurd (startless_close _) (not_startless d rfl (by decide) cut)
  | number t closes flat _ =>
    obtain ⟨last, rfl, ended⟩ :=
      read_numeral t.toNumeral (t.toNumeral.skip_append closes.ends) closes.ends cut
    cases last
    cases ended
    refine .inr ⟨flat.skip, ?_⟩
    simp [unclosed]
  | @numbers rest s t closes flat _ =>
    obtain ⟨last, rfl, ended⟩ := read_numeral s.toNumeral (s.toNumeral.skip_append rfl) rfl cut
    cases last
    cases ended
    refine .inr ⟨(Flat.number t closes flat).blank.skip, ?_⟩
    simp [unclosed]

/-- The nonterminals of literals and numbers. -/
def simple : List Nonterminal := [.vector, .line, .span, .plane, .number]

theorem flat_simple {n : Nonterminal} (listed : n ∈ simple) {d : Derivation [.nonterminal n]}
    (flat : Flat text) (cut : Cut text d.tokens out) :
    Dead out ∨ Flat out ∧ excess text + unclosed d = excess out := by
  simp only [simple, List.mem_cons, List.not_mem_nil, or_false] at listed
  rcases listed with rfl | rfl | rfl | rfl | rfl
  · exact .inr (flat_vectors (m := 0) flat cut)
  · cases d with
    | rule r member parts last =>
      have only : ∀ r ∈ Nonterminal.line.rules, r = lineRule := by decide
      cases only r member
      cases last
      rw [Derivation.tokens, Derivation.tokens, List.append_nil] at cut
      have same : unclosed (.rule lineRule member parts .nil) = unclosed parts := by
        simp [unclosed]
      rw [same]
      exact .inr (flat_vectors (m := 1) flat cut)
  · cases d with
    | rule r member parts last =>
      have only : ∀ r ∈ Nonterminal.span.rules, r = spanRule := by decide
      cases only r member
      cases last
      rw [Derivation.tokens, Derivation.tokens, List.append_nil] at cut
      have same : unclosed (.rule spanRule member parts .nil) = unclosed parts := by
        simp [unclosed]
      rw [same]
      exact .inr (flat_vectors (m := 2) flat cut)
  · exact flat_plane flat cut
  · exact flat_number flat cut

end SolidGeometry.Grammar.Canonical
