import SolidGeometry.Proofs.Evaluation.Numerals

namespace SolidGeometry
open Grammar

variable {row more : List Symbol} {text other after middle rest : List Char}
  {values : List (Option Value)}

/-- The tokens that are one character. -/
def singles : List Terminal := [.opening, .closing, .openNested, .closeNested, .equals]

theorem match?_single {t : Terminal} {n : Nat} (single : t ∈ singles)
    (found : t.match? text = some n) : n = 1 := by
  have table : ∀ t ∈ singles, t.spellings ≠ [] ∧
      ∀ spelling ∈ t.spellings, spelling.length = 1 := by decide
  obtain ⟨some, lengths⟩ := table t single
  unfold Terminal.match? at found
  rw [pattern_of_spellings some] at found
  simp only [Pattern.match?, Option.map_eq_some_iff] at found
  obtain ⟨spelling, first, rfl⟩ := found
  exact lengths spelling (List.mem_of_find?_eq_some first)

theorem begins_of_spelling {t : Terminal} {c d : Char} {spelling : String}
    (shape : t.pattern = .spellings [spelling]) (spelled : spelling.toList = [d])
    (begins : t.begins c = true) : c = d := by
  unfold Terminal.begins at begins
  rw [shape] at begins
  simp only [List.any_cons, List.any_nil, Bool.or_false, beq_iff_eq, spelled,
    List.head?_cons] at begins
  exact (Option.some.inj begins).symm

namespace Leaves

theorem cons_inv {s : Symbol} (leaves : Leaves (s :: row) text values rest) :
    ∃ front back middle, values = front ++ back ∧ Leaves [s] text front middle ∧
      Leaves row middle back rest :=
  split leaves

/-- One nonterminal is read by one of its rules. -/
theorem rule_inv {n : Nonterminal} (leaves : Leaves [.nonterminal n] text values rest) :
    ∃ r ∈ n.rules, r.construct? ≠ some .generic ∧ ∃ parts, values = r.leaves parts ∧
      Leaves r.symbols text parts rest := by
  cases leaves with
  | @rule _ r _ _ middle _ parts _ member plain inner later =>
    obtain ⟨rfl, rfl⟩ := later.nil_inv
    rw [inner.skip_rest]
    exact ⟨r, member, plain, parts, List.append_nil _, inner⟩

/-- One token is read by its match. -/
theorem token_inv {t : Terminal} (leaves : Leaves (.terminal t :: row) text values rest) :
    ∃ n back, t.match? (skip text) = some n ∧ values = t.leaves ((skip text).take n) ++ back ∧
      Leaves row ((skip text).drop n) back rest := by
  cases leaves with
  | token found later => exact ⟨_, _, found, rfl, later⟩

/-- A token of one character. -/
theorem single_inv {t : Terminal} (single : t ∈ singles)
    (leaves : Leaves (.terminal t :: row) text values rest) :
    ∃ c more, t.begins c = true ∧ skip text = c :: more ∧ Leaves row more values rest := by
  obtain ⟨n, back, found, rfl, later⟩ := token_inv leaves
  have table : ∀ t ∈ singles, t.isKept = false := by decide
  cases match?_single single found
  cases front : skip text with
  | nil =>
    rw [front, match?_nil] at found
    cases found
  | cons c more =>
    rw [front] at found later
    unfold Terminal.leaves
    rw [table t single]
    exact ⟨c, more, begins_of_match? found, rfl, later⟩

/-- Marks leave no value, and the first number of the text behind them. -/
theorem past_marks (only : ∀ s ∈ row, ∃ t ∈ marks, s = .terminal t)
    (leaves : Leaves (row ++ more) text values rest) :
    ∃ middle, numeral? middle = numeral? text ∧ Leaves more middle values rest := by
  induction row generalizing text values with
  | nil => exact ⟨text, rfl, leaves⟩
  | cons s row ih =>
    obtain ⟨t, listed, rfl⟩ := only s List.mem_cons_self
    obtain ⟨n, back, found, rfl, later⟩ := token_inv leaves
    obtain ⟨middle, same, behind⟩ :=
      ih (fun s member => only s (List.mem_cons_of_mem _ member)) later
    have unkept : t.leaves ((skip text).take n) = [] := by
      have table : ∀ t ∈ marks, t.isKept = false := by decide
      unfold Terminal.leaves
      rw [table t listed]
      rfl
    rw [unkept]
    exact ⟨middle, (same.trans (numeral?_drop listed found)).trans (numeral?_skip text), behind⟩

end Leaves

/-- A text with a number at its front. -/
def Numbered (text : List Char) : Prop := ∃ n, Terminal.number.match? (skip text) = some n

theorem Numbered.skip (numbered : Numbered text) : Numbered (skip text) := by
  obtain ⟨n, found⟩ := numbered
  exact ⟨n, (skip_skip text).symm ▸ found⟩

/-- A text with a number at its front, or behind a bracket there. -/
def Fronted (text : List Char) : Prop := Numbered text ∨ Numbered ((skip text).drop 1)

/-- The value that the numbers of a text give a literal of a kind, and what follows the numbers. The
numbers of a vector have nothing between them. -/
inductive LiteralAt : Kind → List Char → Option Value → List Char → Prop where
  | vector {text first second rest : List Char} {a b c : Option Value}
      (x : numeral? text = some (a, first)) (adjoined : Numbered first)
      (y : numeral? first = some (b, second)) (joined : Numbered second)
      (z : numeral? second = some (c, rest)) :
      LiteralAt .vector text (Construct.vector.outcome [a, b, c]) rest
  | line {text middle rest : List Char} {u v : Option Value}
      (base : LiteralAt .vector text u middle) (direction : LiteralAt .vector middle v rest) :
      LiteralAt .line text (Construct.line.outcome [u, v]) rest
  | span {text middle later rest : List Char} {u v w : Option Value}
      (base : LiteralAt .vector text u middle) (first : LiteralAt .vector middle v later)
      (second : LiteralAt .vector later w rest) :
      LiteralAt .span text (Construct.span.outcome [u, v, w]) rest
  | plane {text first second third rest : List Char} {a b c d : Option Value}
      (x : numeral? text = some (a, first)) (y : numeral? first = some (b, second))
      (z : numeral? second = some (c, third)) (offset : numeral? third = some (d, rest)) :
      LiteralAt .plane text (Construct.plane.outcome [a, b, c, d]) rest

namespace LiteralAt

variable {k : Kind} {u v : Option Value}

theorem of_numeral? (same : numeral? text = numeral? other) (literal : LiteralAt k text v rest) :
    LiteralAt k other v rest := by
  induction literal with
  | vector x adjoined y joined z => exact .vector (same ▸ x) adjoined y joined z
  | line base direction ih _ => exact .line (ih same) direction
  | span base first second ih _ _ => exact .span (ih same) first second
  | plane x y z offset => exact .plane (same ▸ x) y z offset

/-- A text has one literal of each kind at most. -/
theorem unique (first : LiteralAt k text u rest) (second : LiteralAt k text v other) :
    u = v ∧ rest = other := by
  induction first generalizing v other with
  | vector x _ y _ z =>
    cases second with
    | vector x' _ y' _ z' =>
      cases x.symm.trans x'
      cases y.symm.trans y'
      cases z.symm.trans z'
      exact ⟨rfl, rfl⟩
  | line _ _ base_ih direction_ih =>
    cases second with
    | line base direction =>
      obtain ⟨rfl, rfl⟩ := base_ih base
      obtain ⟨rfl, rfl⟩ := direction_ih direction
      exact ⟨rfl, rfl⟩
  | span _ _ _ base_ih first_ih second_ih =>
    cases second with
    | span base first second =>
      obtain ⟨rfl, rfl⟩ := base_ih base
      obtain ⟨rfl, rfl⟩ := first_ih first
      obtain ⟨rfl, rfl⟩ := second_ih second
      exact ⟨rfl, rfl⟩
  | plane x y z offset =>
    cases second with
    | plane x' y' z' offset' =>
      cases x.symm.trans x'
      cases y.symm.trans y'
      cases z.symm.trans z'
      cases offset.symm.trans offset'
      exact ⟨rfl, rfl⟩

/-- A plane's equation has one number more than a vector. -/
theorem fourth_number (plane : LiteralAt .plane text u rest)
    (vector : LiteralAt .vector text v after) : ∃ d, SolidGeometry.numeral? after = some (d, rest) := by
  cases plane with
  | @plane _ _ _ _ _ _ _ _ d x y z offset =>
    cases vector with
    | vector x' _ y' _ z' =>
      cases x.symm.trans x'
      cases y.symm.trans y'
      cases z.symm.trans z'
      exact ⟨d, offset⟩

/-- A line and a plane through vectors begin with two vectors. -/
theorem exists_vectors (literal : LiteralAt k text v rest) (longer : k = .line ∨ k = .span) :
    ∃ u w middle after, LiteralAt .vector text u middle ∧ LiteralAt .vector middle w after := by
  cases literal with
  | vector _ _ _ _ _ => simp at longer
  | line base direction => exact ⟨_, _, _, _, base, direction⟩
  | span base first second => exact ⟨_, _, _, _, base, first⟩
  | plane _ _ _ _ => simp at longer

end LiteralAt

def Kind.nonterminal : Kind → Nonterminal
  | .line => .line
  | .plane => .plane
  | .span => .span
  | .vector => .vector

/-- What a reading leaves of the text behind the numbers of a literal: all of it, or all but what
closes the literal. -/
inductive Trails (k : Kind) (after : List Char) : List Char → Prop where
  | plain : Trails k after (skip after)
  | closed {c : Char} {more : List Char} (linked : k ≠ .plane)
      (closer : Terminal.closing.begins c = true) (behind : skip after = c :: more) :
      Trails k after (skip more)
  | equated {more : List Char} {n : Nat} (plane : k = .plane) (behind : skip after = '=' :: more)
      (zero : Terminal.zero.match? (skip more) = some n) :
      Trails k after (skip ((skip more).drop n))

theorem closer_cases {c : Char} (closer : Terminal.closing.begins c = true) :
    c = ')' ∨ c = ']' ∨ c = '>' := by
  simp only [Terminal.begins, Terminal.pattern, List.any_cons, List.any_nil, Bool.or_false,
    Bool.or_eq_true, beq_iff_eq] at closer
  rcases closer with same | same | same
  · exact .inl (Option.some.inj same).symm
  · exact .inr (.inl (Option.some.inj same).symm)
  · exact .inr (.inr (Option.some.inj same).symm)

namespace Trails

theorem skip_rest {k : Kind} (trails : Trails k after rest) : skip rest = rest := by
  cases trails <;> exact skip_skip _

/-- What closes a vector closes a literal that ends with it. -/
theorem of_vector {k : Kind} (linked : k ≠ .plane) (trails : Trails .vector after rest) :
    Trails k after rest := by
  cases trails with
  | plain => exact .plain
  | closed _ closer behind => exact .closed linked closer behind
  | equated plane _ _ => cases plane

/-- The numbers behind a vector are the same, whether or not it takes its bracket. -/
theorem numeral? {k : Kind} (linked : k ≠ .plane) (trails : Trails k after rest) :
    SolidGeometry.numeral? rest = SolidGeometry.numeral? after := by
  cases trails with
  | plain => exact numeral?_skip after
  | @closed c more linked closer behind =>
    have mark : Terminal.number.begins c = false := by
      rcases closer_cases closer with rfl | rfl | rfl <;> rfl
    rw [numeral?_skip, ← numeral?_skip after, behind, numeral?_of_not_begins mark]
  | equated plane _ _ => exact absurd plane linked

end Trails

namespace Leaves

theorem number_inv (leaves : Leaves (.nonterminal .number :: row) text values rest) :
    ∃ v after back, values = v :: back ∧ Numbered text ∧ numeral? text = some (v, after) ∧
      Leaves row after back rest := by
  obtain ⟨front, back, middle, rfl, number, later⟩ := cons_inv leaves
  obtain ⟨r, member, _, parts, rfl, inner⟩ := rule_inv number
  have only : ∀ r ∈ Nonterminal.number.rules, r = Canonical.numberRule := by decide
  cases only r member
  obtain ⟨n, empty, found, rfl, ended⟩ := token_inv inner
  obtain ⟨rfl, rfl⟩ := ended.nil_inv
  have value := numeral?_number found
  rw [numeral?_skip] at value
  exact ⟨_, _, back, rfl, ⟨n, found⟩, value, later.of_skip (skip_skip _)⟩

/-- A link leaves no value. -/
theorem link_inv (leaves : Leaves (.nonterminal .link :: row) text values rest) :
    ∃ middle, numeral? middle = numeral? text ∧ Leaves row middle values rest := by
  obtain ⟨front, back, middle, rfl, link, later⟩ := cons_inv leaves
  obtain ⟨r, member, _, parts, rfl, inner⟩ := rule_inv link
  have table : ∀ r ∈ Nonterminal.link.rules, r.construct? = none ∧
      ∀ s ∈ r.symbols, ∃ t ∈ marks, s = .terminal t := by decide
  obtain ⟨inlined, marked⟩ := table r member
  rw [← List.append_nil r.symbols] at inner
  obtain ⟨behind, same, ended⟩ := past_marks marked inner
  obtain ⟨rfl, rfl⟩ := ended.nil_inv
  have empty : r.leaves [] = [] := by
    unfold Rule.leaves
    rw [inlined]
  rw [empty]
  exact ⟨skip behind, (numeral?_skip behind).trans same, later⟩

/-- What closes a vector. -/
private theorem closing_inv {closing : List Symbol}
    (listed : closing ∈ Grammar.optional [.terminal .closing])
    (leaves : Leaves closing text values rest) : values = [] ∧ Trails .vector text rest := by
  simp only [Grammar.optional, List.mem_cons, List.not_mem_nil, or_false] at listed
  rcases listed with rfl | rfl
  · obtain ⟨c, more, closer, front, ended⟩ := single_inv (by decide) leaves
    obtain ⟨rfl, rfl⟩ := ended.nil_inv
    exact ⟨rfl, .closed (by decide) closer front⟩
  · obtain ⟨rfl, rfl⟩ := leaves.nil_inv
    exact ⟨rfl, .plain⟩

private theorem numbers_inv {closing : List Symbol}
    (listed : closing ∈ Grammar.optional [.terminal .closing])
    (leaves : Leaves
      (.nonterminal .number :: .nonterminal .number :: .nonterminal .number :: closing) text values
      rest) :
    ∃ a b c after, values = [a, b, c] ∧ Numbered text ∧
      LiteralAt .vector text (Construct.vector.outcome [a, b, c]) after ∧
      Trails .vector after rest := by
  obtain ⟨a, first, _, rfl, front, x, leaves⟩ := number_inv leaves
  obtain ⟨b, second, _, rfl, adjoined, y, leaves⟩ := number_inv leaves
  obtain ⟨c, third, _, rfl, joined, z, leaves⟩ := number_inv leaves
  obtain ⟨rfl, trails⟩ := closing_inv listed leaves
  exact ⟨a, b, c, third, rfl, front, .vector x adjoined y joined z, trails⟩

def vectorParts : List (List (List Symbol)) :=
  [Grammar.optional [.terminal .opening], always [.nonterminal .number, .nonterminal .number,
    .nonterminal .number], Grammar.optional [.terminal .closing]]

theorem vector_inv (leaves : Leaves (.nonterminal .vector :: row) text values rest) :
    ∃ v after middle back, values = v :: back ∧ Fronted text ∧ LiteralAt .vector text v after ∧
      Trails .vector after middle ∧ Leaves row middle back rest := by
  obtain ⟨front, back, middle, rfl, vector, later⟩ := cons_inv leaves
  obtain ⟨r, member, _, parts, rfl, inner⟩ := rule_inv vector
  have table : ∀ r ∈ Nonterminal.vector.rules,
      r.symbols ∈ sequences vectorParts ∧ r.construct? = some .vector := by decide
  obtain ⟨rows, construct⟩ := table r member
  have value : r.leaves parts = [Construct.vector.outcome parts] := by
    unfold Rule.leaves
    rw [construct]
  rw [value]
  obtain ⟨opening, opens, _, unopened, symbols⟩ := Canonical.mem_sequences rows
  obtain ⟨numbers, three, _, behind, rfl⟩ := Canonical.mem_sequences unopened
  obtain ⟨closing, closes, _, empty, rfl⟩ := Canonical.mem_sequences behind
  obtain rfl := List.mem_singleton.mp three
  obtain rfl := List.mem_singleton.mp empty
  rw [symbols, List.append_nil] at inner
  simp only [Grammar.optional, List.mem_cons, List.not_mem_nil, or_false] at opens
  rcases opens with rfl | rfl
  · obtain ⟨n, _, found, rfl, inner⟩ := token_inv inner
    obtain ⟨a, b, c, after, rfl, numbered, literal, trails⟩ := numbers_inv closes inner
    have same := (numeral?_drop (by decide) found).trans (numeral?_skip text)
    cases match?_single (by decide) found
    exact ⟨_, after, middle, back, rfl, .inr numbered, literal.of_numeral? same, trails, later⟩
  · obtain ⟨a, b, c, after, rfl, numbered, literal, trails⟩ := numbers_inv closes inner
    exact ⟨_, after, middle, back, rfl, .inl numbered, literal, trails, later⟩

/-- A vector behind a link. -/
private theorem linked_inv
    (leaves : Leaves (.nonterminal .link :: .nonterminal .vector :: row) text values rest) :
    ∃ v after middle back, values = v :: back ∧ LiteralAt .vector text v after ∧
      Trails .vector after middle ∧ Leaves row middle back rest := by
  obtain ⟨linked, same, vector⟩ := link_inv leaves
  obtain ⟨v, after, middle, back, rfl, _, literal, trails, later⟩ := vector_inv vector
  exact ⟨v, after, middle, back, rfl, literal.of_numeral? same, trails, later⟩

theorem line_inv (leaves : Leaves (.nonterminal .line :: row) text values rest) :
    ∃ v after middle back, values = v :: back ∧ Fronted text ∧ LiteralAt .line text v after ∧
      Trails .line after middle ∧ Leaves row middle back rest := by
  obtain ⟨_, back, middle, rfl, line, later⟩ := cons_inv leaves
  obtain ⟨r, member, _, parts, rfl, inner⟩ := rule_inv line
  have only : ∀ r ∈ Nonterminal.line.rules, r = Canonical.lineRule := by decide
  cases only r member
  obtain ⟨u, first, between, _, rfl, front, base, beside, inner⟩ := vector_inv inner
  obtain ⟨v, second, ended, _, rfl, direction, trails, inner⟩ := linked_inv inner
  obtain ⟨rfl, rfl⟩ := inner.nil_inv
  have direction := direction.of_numeral? (beside.numeral? (by decide))
  rw [trails.skip_rest] at later
  exact ⟨_, second, ended, back, rfl, front, .line base direction, trails.of_vector (by decide),
    later⟩

theorem span_inv (leaves : Leaves (.nonterminal .span :: row) text values rest) :
    ∃ v after middle back, values = v :: back ∧ Fronted text ∧ LiteralAt .span text v after ∧
      Trails .span after middle ∧ Leaves row middle back rest := by
  obtain ⟨_, back, middle, rfl, span, later⟩ := cons_inv leaves
  obtain ⟨r, member, _, parts, rfl, inner⟩ := rule_inv span
  have only : ∀ r ∈ Nonterminal.span.rules, r = Canonical.spanRule := by decide
  cases only r member
  obtain ⟨u, first, between, _, rfl, front, base, beside, inner⟩ := vector_inv inner
  obtain ⟨v, second, behind, _, rfl, across, trails, inner⟩ := linked_inv inner
  obtain ⟨w, third, ended, _, rfl, along, closed, inner⟩ := linked_inv inner
  obtain ⟨rfl, rfl⟩ := inner.nil_inv
  have across := across.of_numeral? (beside.numeral? (by decide))
  have along := along.of_numeral? (trails.numeral? (by decide))
  rw [closed.skip_rest] at later
  exact ⟨_, third, ended, back, rfl, front, .span base across along, closed.of_vector (by decide),
    later⟩

/-- A number of a plane's equation, behind the mark of a coordinate. -/
private theorem coordinate_inv {axis : Terminal} (listed : axis ∈ [Terminal.x, .y, .z])
    {symbols : List Symbol} {parts : List (List (List Symbol))}
    (member : symbols ∈ sequences (coordinate axis :: always [.nonterminal .number] :: parts))
    (leaves : Leaves symbols text values rest) :
    ∃ others ∈ sequences parts, ∃ v after back, values = v :: back ∧
      numeral? text = some (v, after) ∧ Leaves others after back rest := by
  obtain ⟨mark, marked, _, unmarked, rfl⟩ := Canonical.mem_sequences member
  obtain ⟨number, one, others, behind, rfl⟩ := Canonical.mem_sequences unmarked
  obtain rfl := List.mem_singleton.mp one
  have table : ∀ axis ∈ [Terminal.x, .y, .z], ∀ mark ∈ coordinate axis,
      ∀ s ∈ mark, ∃ t ∈ marks, s = .terminal t := by decide
  obtain ⟨middle, same, inner⟩ := past_marks (table axis listed mark marked) leaves
  obtain ⟨v, after, back, rfl, _, value, later⟩ := number_inv inner
  exact ⟨others, behind, v, after, back, rfl, same ▸ value, later⟩

/-- The right side of a plane's equation. -/
private theorem equated_inv {symbols : List Symbol}
    (member : symbols ∈ sequences [Grammar.optional [.terminal .equals, .terminal .zero]])
    (leaves : Leaves symbols text values rest) : values = [] ∧ Trails .plane text rest := by
  obtain ⟨side, listed, _, empty, rfl⟩ := Canonical.mem_sequences member
  obtain rfl := List.mem_singleton.mp empty
  rw [List.append_nil] at leaves
  simp only [Grammar.optional, List.mem_cons, List.not_mem_nil, or_false] at listed
  rcases listed with rfl | rfl
  · obtain ⟨c, more, equals, front, inner⟩ := single_inv (by decide) leaves
    obtain ⟨n, _, zero, rfl, ended⟩ := token_inv inner
    obtain ⟨rfl, rfl⟩ := ended.nil_inv
    cases begins_of_spelling rfl rfl equals
    exact ⟨rfl, .equated rfl front zero⟩
  · obtain ⟨rfl, rfl⟩ := leaves.nil_inv
    exact ⟨rfl, .plain⟩

theorem plane_inv (leaves : Leaves (.nonterminal .plane :: row) text values rest) :
    ∃ v after middle back, values = v :: back ∧ Fronted text ∧ LiteralAt .plane text v after ∧
      Trails .plane after middle ∧ Leaves row middle back rest := by
  obtain ⟨_, back, middle, rfl, plane, later⟩ := cons_inv leaves
  obtain ⟨r, member, _, parts, rfl, inner⟩ := rule_inv plane
  have construct : ∀ r ∈ Nonterminal.plane.rules, r.construct? = some .plane := by decide +kernel
  have value : r.leaves parts = [Construct.plane.outcome parts] := by
    unfold Rule.leaves
    rw [construct r member]
  rw [value]
  obtain ⟨number, one, _, behind, symbols⟩ :=
    Canonical.mem_sequences (Canonical.symbols_mem_planeParts member)
  obtain rfl := List.mem_singleton.mp one
  rw [symbols] at inner
  obtain ⟨a, first, _, rfl, front, x, inner⟩ := number_inv inner
  obtain ⟨_, behind, b, second, _, rfl, y, inner⟩ := coordinate_inv (by decide) behind inner
  obtain ⟨_, behind, c, third, _, rfl, z, inner⟩ := coordinate_inv (by decide) behind inner
  obtain ⟨_, behind, d, fourth, _, rfl, offset, inner⟩ := coordinate_inv (by decide) behind inner
  obtain ⟨rfl, trails⟩ := equated_inv behind inner
  exact ⟨_, fourth, middle, back, rfl, .inl front, .plane x y z offset, trails, later⟩

/-- A literal is read from the numbers of its text. -/
theorem literal_inv {k : Kind}
    (leaves : Leaves (.nonterminal k.nonterminal :: row) text values rest) :
    ∃ v after middle back, values = v :: back ∧ Fronted text ∧ LiteralAt k text v after ∧
      Trails k after middle ∧ Leaves row middle back rest := by
  cases k with
  | line => exact line_inv leaves
  | plane => exact plane_inv leaves
  | span => exact span_inv leaves
  | vector => exact vector_inv leaves

theorem literal_alone {k : Kind} (leaves : Leaves [.nonterminal k.nonterminal] text values rest) :
    ∃ v after, values = [v] ∧ Fronted text ∧ LiteralAt k text v after ∧ Trails k after rest := by
  obtain ⟨v, after, middle, back, rfl, front, literal, trails, ended⟩ := literal_inv leaves
  obtain ⟨rfl, rfl⟩ := ended.nil_inv
  rw [trails.skip_rest]
  exact ⟨v, after, rfl, front, literal, trails⟩

end Leaves

end SolidGeometry
