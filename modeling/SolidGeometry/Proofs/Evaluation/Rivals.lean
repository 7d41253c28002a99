import SolidGeometry.Proofs.Evaluation.LiteralOutcomes

/-! Two readings of one operand. They have the same outcome and leave the same of the text but for
one closing bracket, which a vector or the call around it may take; or neither has a value that the
call around them can use. -/
namespace SolidGeometry
open Grammar Grammar.Canonical

variable {row : List Symbol} {text other after middle rest first second : List Char}
  {values others : List (Option Value)} {u v : Option Value}

/-- A text and what follows its closing bracket. -/
def Sheds (text rest : List Char) : Prop :=
  ∃ c more, Terminal.closing.begins c = true ∧ text = c :: more ∧ rest = skip more

/-- Two rests of a text that differ by one closing bracket at most. -/
def Near (first second : List Char) : Prop :=
  first = second ∨ Sheds first second ∨ Sheds second first

theorem Near.symm (near : Near first second) : Near second first := by
  rcases near with same | less | more
  · exact .inl same.symm
  · exact .inr (.inr less)
  · exact .inr (.inl more)

/-- Nothing solid begins with a closing bracket. -/
theorem Sheds.startless (sheds : Sheds text rest) : Startless text := by
  obtain ⟨c, more, closer, rfl, _⟩ := sheds
  rcases closer_cases closer with rfl | rfl | rfl <;> exact .of_begins rfl (by decide)

/-- Where both rests go on, they are the same. -/
theorem Near.eq_of_solid (near : Near first second) (left : ¬ Startless first)
    (right : ¬ Startless second) : first = second := by
  rcases near with same | less | more
  · exact same
  · exact absurd less.startless left
  · exact absurd more.startless right

theorem Trails.near {k : Kind} (linked : k ≠ .plane) (left : Trails k after first)
    (right : Trails k after second) : Near first second := by
  cases left with
  | plain =>
    cases right with
    | plain => exact .inl rfl
    | closed _ closer behind => exact .inr (.inl ⟨_, _, closer, behind, rfl⟩)
    | equated plane _ _ => exact absurd plane linked
  | closed _ closer behind =>
    cases right with
    | plain => exact .inr (.inr ⟨_, _, closer, behind, rfl⟩)
    | closed _ _ same =>
      cases behind.symm.trans same
      exact .inl rfl
    | equated plane _ _ => exact absurd plane linked
  | equated plane _ _ => exact absurd plane linked

/-- One more vector can be read. -/
def Opens (text : List Char) : Prop :=
  ∃ values rest, Leaves [.nonterminal .vectorOperand] text values rest

/-- One more vector can be read behind the bracket that closes a call. -/
def Reopens (text : List Char) : Prop := ∃ more, text = ')' :: more ∧ Opens more

theorem Opens.solid (opens : Opens text) : ¬ Startless text := by
  obtain ⟨values, rest, leaves⟩ := opens
  exact leaves.not_startless rfl (by decide)

theorem Opens.skip (opens : Opens text) : Opens (skip text) := by
  obtain ⟨values, rest, leaves⟩ := opens
  exact ⟨values, rest, leaves.of_skip (skip_skip text).symm⟩

/-- The outcomes of two readings of one text and what they leave of it. Where the outcomes may
differ, neither is a vector or a line, and one of the readings leaves off where it could go on. -/
inductive Rival (goesOn : List Char → Prop) (u v : Option Value) (first second : List Char) :
    Prop where
  | agree (same : u = v) (near : Near first second)
  | failed (left : u = none) (right : v = none)
  | crooked (left : Crooked u) (right : Crooked v) (left_off : goesOn first ∨ goesOn second)

/-- Two readings of a call whose bracket closes behind it, or that ends the text, are rivals. -/
def Settled (text : List Char) : Prop :=
  ∀ {values others : List (Option Value)} {first second : List Char},
    Leaves [.nonterminal .call] text values first → Leaves [.nonterminal .call] text others second →
      Closes first → Closes second →
        ∃ u v, values = [u] ∧ others = [v] ∧ Rival Reopens u v first second

/-- The calls that may be nested in a text are settled. -/
def SettledInside (text : List Char) : Prop :=
  ∀ inside : List Char, inside.length < text.length → Settled inside

theorem SettledInside.mono (settled : SettledInside text) (shorter : rest.length ≤ text.length) :
    SettledInside rest :=
  fun inside less => settled inside (Nat.lt_of_lt_of_le less shorter)

namespace Leaves

theorem nested_inv (leaves : Leaves [.nonterminal .nested] text values rest) :
    ∃ inside behind, skip text = '(' :: inside ∧ rest = skip behind ∧
      Leaves [.nonterminal .call] inside values (')' :: behind) := by
  obtain ⟨r, member, _, parts, rfl, inner⟩ := rule_inv leaves
  have only : ∀ r ∈ Nonterminal.nested.rules, r = nestedRule := by decide
  cases only r member
  obtain ⟨c, inside, opens, front, inner⟩ := single_inv (by decide) inner
  cases begins_of_spelling rfl rfl opens
  obtain ⟨first, back, middle, rfl, call, inner⟩ := cons_inv inner
  obtain ⟨c, behind, closes, ended, inner⟩ := single_inv (by decide) inner
  cases begins_of_spelling rfl rfl closes
  obtain ⟨rfl, rfl⟩ := inner.nil_inv
  rw [call.skip_rest] at ended
  rw [ended] at call
  exact ⟨inside, behind, front, rfl, (List.append_nil first).symm ▸ call⟩

/-- A nonterminal that only passes on is read as one of those to which it passes on. -/
theorem unit_inv {n : Nonterminal} {units : List Nonterminal}
    (passes : ∀ r ∈ n.rules, r.construct? = none ∧ ∃ m ∈ units, r.symbols = [.nonterminal m])
    (leaves : Leaves [.nonterminal n] text values rest) :
    ∃ m ∈ units, Leaves [.nonterminal m] text values rest := by
  obtain ⟨r, member, _, parts, rfl, inner⟩ := rule_inv leaves
  obtain ⟨inlined, m, listed, symbols⟩ := passes r member
  have same : r.leaves parts = parts := by
    unfold Rule.leaves
    rw [inlined]
  rw [same]
  rw [symbols] at inner
  exact ⟨m, listed, inner⟩

/-- A call has a shape, and its outcome comes from its name and its operands. -/
theorem call_inv (leaves : Leaves [.nonterminal .call] text values rest) :
    ∃ s ∈ shapes, s ≠ .generic ∧ ∃ n parts, s.head.match? (skip text) = some n ∧
      values = [s.construct.outcome (s.head.leaves ((skip text).take n) ++ parts)] ∧
      Leaves (s.operands.map .nonterminal) ((skip text).drop n) parts rest := by
  obtain ⟨r, member, plain, parts, rfl, inner⟩ := rule_inv leaves
  rw [rules_call] at member
  obtain ⟨s, listed, rfl⟩ := List.mem_map.mp member
  obtain ⟨n, back, found, rfl, operands⟩ := token_inv inner
  exact ⟨s, listed, fun generic => plain (by rw [generic]; rfl), n, back, found, rfl, operands⟩

/-- A call begins with a letter, unlike all that is solid. -/
theorem call_startless (leaves : Leaves [.nonterminal .call] text values rest) :
    Startless text := by
  obtain ⟨s, listed, _, n, parts, found, _, _⟩ := call_inv leaves
  cases front : skip text with
  | nil =>
    rw [front, match?_nil] at found
    cases found
  | cons c more =>
    rw [front] at found
    have letter := isLetter_of_begins (head_mem_heads listed) (begins_of_match? found)
    exact .of_begins front (openers_not_letter letter)

/-- A nested call is no literal: a name follows its bracket. -/
theorem nested_not_fronted (leaves : Leaves [.nonterminal .nested] text values rest) :
    ¬ Fronted text := by
  obtain ⟨inside, behind, front, _, call⟩ := nested_inv leaves
  rintro (⟨n, found⟩ | ⟨n, found⟩)
  · rw [front, match?_of_not_begins inside rfl] at found
    cases found
  · rw [front, List.drop_succ_cons, List.drop_zero,
      call_startless call .number (by decide)] at found
    cases found

end Leaves

/-- What brackets close around rivals leaves rivals. -/
private theorem near_of_closed (near : Near (')' :: first) (')' :: second)) :
    Near (skip first) (skip second) := by
  have unbracketed : ∀ {text rest : List Char}, Sheds (')' :: text) (')' :: rest) →
      Sheds (skip text) (skip rest) := by
    rintro text rest ⟨c, more, _, front, ahead⟩
    cases front
    exact ⟨')', rest, rfl, ahead.symm, rfl⟩
  rcases near with same | less | more
  · cases same
    exact .inl rfl
  · exact .inr (.inl (unbracketed less))
  · exact .inr (.inr (unbracketed more))

theorem Rival.of_closed (rival : Rival Reopens u v (')' :: first) (')' :: second)) :
    Rival Opens u v (skip first) (skip second) := by
  have opens : ∀ {text : List Char}, Reopens (')' :: text) → Opens (skip text) := by
    rintro text ⟨more, front, opens⟩
    cases front
    exact opens.skip
  cases rival with
  | agree same near => exact .agree same (near_of_closed near)
  | failed left right => exact .failed left right
  | crooked left right off => exact .crooked left right (off.imp opens opens)

/-- Two readings of a nested call are rivals, if those of the call in it are. -/
theorem nested_rival (settled : SettledInside text)
    (left : Leaves [.nonterminal .nested] text values first)
    (right : Leaves [.nonterminal .nested] text others second) :
    ∃ u v, values = [u] ∧ others = [v] ∧ Rival Opens u v first second := by
  obtain ⟨inside, behind, front, rfl, call⟩ := left.nested_inv
  obtain ⟨inner, later, same, rfl, other⟩ := right.nested_inv
  cases front.symm.trans same
  have shorter : inside.length < text.length := by
    have bound := length_skip text
    rw [front, List.length_cons] at bound
    exact bound
  obtain ⟨u, v, rfl, rfl, rival⟩ :=
    settled inside shorter call other (.inr ⟨behind, rfl⟩) (.inr ⟨later, rfl⟩)
  exact ⟨u, v, rfl, rfl, rival.of_closed⟩

/-- An operand is a literal of one of a few kinds or a nested call. -/
theorem operand_inv {n : Nonterminal} (kinds : List Kind)
    (passes : ∀ r ∈ n.rules, r.construct? = none ∧
      ∃ m ∈ kinds.map Kind.nonterminal ++ [.nested], r.symbols = [.nonterminal m])
    (leaves : Leaves [.nonterminal n] text values rest) :
    (∃ k ∈ kinds, ∃ v after, values = [v] ∧ Fronted text ∧ LiteralAt k text v after ∧
      Trails k after rest) ∨ Leaves [.nonterminal .nested] text values rest := by
  obtain ⟨m, listed, inner⟩ := leaves.unit_inv passes
  rcases List.mem_append.mp listed with literal | nested
  · obtain ⟨k, member, rfl⟩ := List.mem_map.mp literal
    exact .inl ⟨k, member, inner.literal_alone⟩
  · cases List.mem_singleton.mp nested
    exact .inr inner

/-- Two readings of an operand of one kind are rivals. -/
theorem operand_rival {n : Nonterminal} {k : Kind} (linked : k ≠ .plane)
    (passes : ∀ r ∈ n.rules, r.construct? = none ∧
      ∃ m ∈ [k].map Kind.nonterminal ++ [.nested], r.symbols = [.nonterminal m])
    (settled : SettledInside text) (left : Leaves [.nonterminal n] text values first)
    (right : Leaves [.nonterminal n] text others second) :
    ∃ u v, values = [u] ∧ others = [v] ∧ Rival Opens u v first second := by
  rcases operand_inv [k] passes left with
    ⟨_, listed, u, after, rfl, front, literal, trails⟩ | nested
  · cases List.mem_singleton.mp listed
    rcases operand_inv [k] passes right with ⟨_, member, v, behind, rfl, _, same, ended⟩ | other
    · cases List.mem_singleton.mp member
      obtain ⟨rfl, rfl⟩ := literal.unique same
      exact ⟨u, u, rfl, rfl, .agree rfl (trails.near linked ended)⟩
    · exact absurd front other.nested_not_fronted
  · rcases operand_inv [k] passes right with ⟨_, _, _, _, _, front, _⟩ | other
    · exact absurd front nested.nested_not_fronted
    · exact nested_rival settled nested other

end SolidGeometry
