import SolidGeometry.Proofs.Evaluation.Competition

namespace SolidGeometry
open Grammar Grammar.Canonical

variable {text after behind rest : List Char} {values others : List (Option Value)}
  {u v : Option Value}

theorem LiteralAt.exists_numeral {k : Kind} (literal : LiteralAt k text v rest) :
    numeral? text ≠ none := by
  induction literal with
  | vector x _ _ _ _ => exact fun absent => Option.some_ne_none _ (x.symm.trans absent)
  | line _ _ ih _ => exact ih
  | span _ _ _ ih _ _ => exact ih
  | plane x _ _ _ => exact fun absent => Option.some_ne_none _ (x.symm.trans absent)

/-- Where a vector has the last number of a text, no other literal is read. -/
private theorem eq_vector {k : Kind} (vector : LiteralAt .vector text u after)
    (last : numeral? after = none) (literal : LiteralAt k text v behind) : k = .vector := by
  have short : ∀ {k : Kind}, LiteralAt k text v behind → ¬ (k = .line ∨ k = .span) := by
    intro k literal longer
    obtain ⟨_, _, middle, _, base, next⟩ := literal.exists_vectors longer
    obtain ⟨_, rfl⟩ := vector.unique base
    exact next.exists_numeral last
  cases k with
  | vector => rfl
  | line => exact absurd (.inl rfl) (short literal)
  | span => exact absurd (.inr rfl) (short literal)
  | plane =>
    obtain ⟨d, offset⟩ := literal.fourth_number vector
    cases offset.symm.trans last

/-- Where a line has the last number of a text, no plane through vectors is read. -/
private theorem not_line_and_span (line : LiteralAt .line text u after)
    (last : numeral? after = none) : ¬ LiteralAt .span text v behind := by
  intro span
  cases line with
  | line base direction =>
    cases span with
    | span start first second =>
      obtain ⟨_, rfl⟩ := base.unique start
      obtain ⟨_, rfl⟩ := direction.unique first
      exact second.exists_numeral last

/-- A whole text is a literal of one kind at most. -/
theorem kind_unique {k l : Kind} (left : LiteralAt k text u after)
    (right : LiteralAt l text v behind) (trails : Trails k after [])
    (ended : Trails l behind []) : k = l := by
  have last : ∀ {k : Kind} {after : List Char}, k ≠ .plane → Trails k after [] →
      numeral? after = none := fun linked trails => (trails.numeral? linked).symm
  have chained : ∀ {k : Kind}, k ≠ .plane → k ≠ .vector → k = .line ∨ k = .span := by
    intro k linked several
    cases k <;> simp_all
  by_cases vector : k = .vector
  · subst vector
    exact (eq_vector left (last (by decide) trails) right).symm
  by_cases single : l = .vector
  · subst single
    exact eq_vector right (last (by decide) ended) left
  by_cases plane : k = .plane
  · subst plane
    by_cases equation : l = .plane
    · exact equation.symm
    · exact (not_plane_and_chain left trails (.inl rfl) right (chained equation single)).elim
  by_cases equation : l = .plane
  · subst equation
    exact (not_plane_and_chain right ended (.inl rfl) left (chained plane vector)).elim
  rcases chained plane vector with rfl | rfl
  · rcases chained equation single with rfl | rfl
    · rfl
    · exact absurd right (not_line_and_span left (last (by decide) trails))
  · rcases chained equation single with rfl | rfl
    · exact absurd left (not_line_and_span right (last (by decide) ended))
    · rfl

/-- A literal is one of a kind. -/
theorem Leaves.exists_kind (leaves : Leaves [.nonterminal .literal] text values rest) :
    ∃ k : Kind, Leaves [.nonterminal k.nonterminal] text values rest := by
  have kinds : ∀ r ∈ Nonterminal.literal.rules, r.construct? = none ∧
      ∃ m ∈ [Kind.vector, .line, .plane, .span].map Kind.nonterminal,
        r.symbols = [.nonterminal m] := by decide
  obtain ⟨_, listed, inner⟩ := leaves.unit_inv kinds
  obtain ⟨k, _, rfl⟩ := List.mem_map.mp listed
  exact ⟨k, inner⟩

theorem literal_outcomes (left : Leaves [.nonterminal .literal] text values [])
    (right : Leaves [.nonterminal .literal] text others []) : values = others := by
  obtain ⟨k, first⟩ := left.exists_kind
  obtain ⟨l, second⟩ := right.exists_kind
  obtain ⟨u, after, rfl, _, literal, trails⟩ := first.literal_alone
  obtain ⟨v, behind, rfl, _, other, ended⟩ := second.literal_alone
  obtain rfl := kind_unique literal other trails ended
  rw [(literal.unique other).1]

theorem call_outcomes (left : Leaves [.nonterminal .call] text values [])
    (right : Leaves [.nonterminal .call] text others []) : values = others := by
  obtain ⟨u, v, rfl, rfl, rival⟩ := settled text left right (.inl rfl) (.inl rfl)
  cases rival with
  | agree same _ => rw [same]
  | failed left right => rw [left, right]
  | crooked _ _ off =>
    rcases off with ⟨_, front, _⟩ | ⟨_, front, _⟩ <;> cases front

/-- A whole text is a call or a literal. -/
theorem Leaves.start_cases (leaves : Leaves [.nonterminal .start] text values rest) :
    Leaves [.nonterminal .call] text values rest ∨
      Leaves [.nonterminal .literal] text values rest := by
  have units : ∀ r ∈ Nonterminal.start.rules, r.construct? = none ∧
      ∃ m ∈ [Nonterminal.call, .literal], r.symbols = [.nonterminal m] := by decide
  obtain ⟨m, listed, inner⟩ := leaves.unit_inv units
  simp only [List.mem_cons, List.not_mem_nil, or_false] at listed
  rcases listed with rfl | rfl
  · exact .inl inner
  · exact .inr inner

/-- All readings of a whole text without generic functions have one outcome. -/
theorem start_outcomes (left : Leaves [.nonterminal .start] text values [])
    (right : Leaves [.nonterminal .start] text others []) : values = others := by
  rcases left.start_cases with first | first
  · rcases right.start_cases with second | second
    · exact call_outcomes first second
    · exact absurd first.call_startless (second.not_startless rfl (by decide))
  · rcases right.start_cases with second | second
    · exact absurd second.call_startless (first.not_startless rfl (by decide))
    · exact literal_outcomes first second

/-- Two evaluations have the same value, or neither has one. -/
inductive Agree {ε α : Type} : Except ε α → Except ε α → Prop where
  | value (a : α) : Agree (.ok a) (.ok a)
  | failure (e f : ε) : Agree (.error e) (.error f)

theorem agree_of_toOption {ε α : Type} {first second : Except ε α}
    (same : first.toOption = second.toOption) : Agree first second := by
  cases first with
  | ok a =>
    cases second with
    | ok b =>
      cases same
      exact .value a
    | error f => cases same
  | error e =>
    cases second with
    | ok b => cases same
    | error f => exact .failure e f

/-- Two derivations of a text without generic functions have trees that agree in their values. -/
theorem agree_of_plain {d e : Derivation [.nonterminal .start]} {t s : Grammar.Tree}
    (left : d.Spells text) (right : e.Spells text) (plain : ¬ d.Generic) (simple : ¬ e.Generic)
    (tree : d.trees = [t]) (other : e.trees = [s]) : Agree t.value.result s.value.result := by
  have same := start_outcomes (d.leaves plain left) (e.leaves simple right)
  rw [tree, other] at same
  exact agree_of_toOption (List.cons.inj same).1

/-- A generic function is called by its name. -/
private theorem exists_name {row : List Symbol} {d : Derivation row} (generic : d.Generic) :
    ∃ t ∈ d.tokens, t.terminal = .generic := by
  have named : ∀ n : Nonterminal, ∀ r ∈ n.rules, r.construct? = some .generic →
      r.symbols.head? = some (.terminal .generic) := by
    intro n
    cases n <;> decide +kernel
  induction d with
  | nil => exact generic.elim
  | token t spelling later ih =>
    obtain ⟨found, member, same⟩ := ih generic
    exact ⟨found, List.mem_cons_of_mem _ member, same⟩
  | @rule _ n r member parts later parts_ih later_ih =>
    rw [Derivation.tokens]
    rcases generic with here | inside | behind
    · have front := named n r member here
      obtain ⟨order, origin, symbols, construct⟩ := r
      cases symbols with
      | nil => cases front
      | cons s more =>
        cases front
        cases parts with
        | token _ spelling operands => exact ⟨⟨.generic, spelling⟩, List.mem_cons_self, rfl⟩
    · obtain ⟨found, member, same⟩ := parts_ih inside
      exact ⟨found, List.mem_append_left _ member, same⟩
    · obtain ⟨found, member, same⟩ := later_ih behind
      exact ⟨found, List.mem_append_right _ member, same⟩

private theorem part_of_mem {tokens : List Token} (cut : Cut text tokens rest) :
    ∀ t ∈ tokens, t.text <:+: text := by
  induction cut with
  | nil => exact fun t member => absurd member List.not_mem_nil
  | @cons text rest tokens t n found later ih =>
    have front : skip text <:+ text := List.dropWhile_suffix isSeparator
    intro s member
    rcases List.mem_cons.mp member with rfl | behind
    · exact (List.take_prefix n _).isInfix.trans front.isInfix
    · exact (ih s behind).trans ((List.drop_suffix n _).trans front).isInfix

/-- Where none of their names stands, no generic function is called. -/
theorem plain_of_nameless (absent : ∀ name ∈ Terminal.generic.spellings, ¬ name.toList <:+: text)
    {d : Derivation [.nonterminal .start]} (spells : d.Spells text) : ¬ d.Generic := by
  intro generic
  obtain ⟨⟨terminal, name⟩, member, rfl⟩ := exists_name generic
  have spelled := (spells.fits _ member).spelled rfl
  refine absent _ spelled ?_
  rw [String.toList_ofList]
  exact part_of_mem spells _ member

/-- Without generic functions, ambiguity is harmless: all derivation trees of a text have the same
value or all fail, and the text evaluates as each of them does. -/
theorem readings_agree {text : String}
    (plain : ∀ d : Derivation [.nonterminal .start], d.Spells (Text.trim text.toList) → ¬ d.Generic)
    {d e : Derivation [.nonterminal .start]} {t s : Grammar.Tree}
    (left : d.Spells (Text.trim text.toList)) (right : e.Spells (Text.trim text.toList))
    (tree : d.trees = [t]) (other : e.trees = [s]) :
    Agree t.value.result s.value.result ∧ Agree (evaluate text).result t.value.result := by
  refine ⟨agree_of_plain left right (plain d left) (plain e right) tree other, ?_⟩
  rcases readTrimmed_cases (Text.trim text.toList) with
    ⟨chosen, picked, spells, single, found⟩ | ⟨none, _⟩
  · have evaluated : (evaluate text).result = picked.value.result := result_evaluate found
    rw [evaluated]
    exact agree_of_plain spells left (plain chosen spells) (plain d left) single tree
  · exact absurd left (none d)

def bareRule : Rule :=
  ⟨3, .vector, [.nonterminal .number, .nonterminal .number, .nonterminal .number], some .vector⟩

theorem bareRule_mem : bareRule ∈ Nonterminal.vector.rules := by decide

theorem numberRule_mem : numberRule ∈ Nonterminal.number.rules := by decide

theorem startRule_mem : unitRule 1 .start .literal ∈ Nonterminal.start.rules := by decide

theorem literalRule_mem : unitRule 1 .literal .line ∈ Nonterminal.literal.rules := by decide

/-- The derivation of a vector whose numbers stand without brackets. -/
def bareVector {row : List Symbol} (x y z : List Char) (later : Derivation row) :
    Derivation (.nonterminal .vector :: row) :=
  .rule bareRule bareRule_mem
    (.rule numberRule numberRule_mem (.token .number x .nil)
      (.rule numberRule numberRule_mem (.token .number y .nil)
        (.rule numberRule numberRule_mem (.token .number z .nil) .nil))) later

/-- The derivation of a line whose numbers stand without brackets. -/
def bareLine {link : Rule} (linking : link ∈ Nonterminal.link.rules)
    (between : Derivation link.symbols) (x y z u v w : List Char) :
    Derivation [.nonterminal .start] :=
  .rule (unitRule 1 .start .literal) startRule_mem
    (.rule (unitRule 1 .literal .line) literalRule_mem
      (.rule lineRule lineRule_mem
        (bareVector x y z (.rule link linking between (bareVector u v w .nil))) .nil) .nil) .nil

/-- A plus that links two vectors or signs a number. -/
theorem readings_agree_plus :
    let text := Text.trim "1 2 3 + 4 5 6".toList
    ∃ (d e : Derivation [.nonterminal .start]) (t s : Grammar.Tree), d.tokens ≠ e.tokens ∧
      (∀ d : Derivation [.nonterminal .start], d.Spells text → ¬ d.Generic) ∧
      d.Spells text ∧ e.Spells text ∧ d.trees = [t] ∧ e.trees = [s] ∧
      Agree t.value.result s.value.result ∧
      Agree (evaluate "1 2 3 + 4 5 6").result t.value.result := by
  intro text
  have spelled : text = ['1', ' ', '2', ' ', '3', ' ', '+', ' ', '4', ' ', '5', ' ', '6'] := by
    decide
  have plain : ∀ d : Derivation [.nonterminal .start], d.Spells text → ¬ d.Generic :=
    fun d spells => plain_of_nameless (by rw [spelled]; decide) spells
  have plus : (⟨3, .link, [.terminal .plus], none⟩ : Rule) ∈ Nonterminal.link.rules := by decide
  have empty : (⟨7, .link, [], none⟩ : Rule) ∈ Nonterminal.link.rules := by decide
  have linked : (bareLine plus (.token .plus ['+'] .nil) ['1'] ['2'] ['3'] ['4'] ['5']
      ['6']).Spells text := by
    rw [spelled]
    exact .cons (n := 1) rfl (.cons (n := 1) rfl (.cons (n := 1) rfl (.cons (n := 1) rfl
      (.cons (n := 1) rfl (.cons (n := 1) rfl (.cons (n := 1) rfl .nil))))))
  have signed : (bareLine empty .nil ['1'] ['2'] ['3'] ['+', ' ', '4'] ['5']
      ['6']).Spells text := by
    rw [spelled]
    exact .cons (n := 1) rfl (.cons (n := 1) rfl (.cons (n := 1) rfl (.cons (n := 3) rfl
      (.cons (n := 1) rfl (.cons (n := 1) rfl .nil)))))
  refine ⟨_, _, _, _, fun same => ?_, plain, linked, signed, rfl, rfl,
    readings_agree plain linked signed rfl rfl⟩
  have longer : (7 : Nat) = 6 := congrArg List.length same
  cases longer

end SolidGeometry
