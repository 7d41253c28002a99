import SolidGeometry.Proofs.Grammar.Timeline

/-! No derivation is missed: an item that is known at an offset is known, moved over a row of its
symbols, at every offset to which the tokens of a derivation of the row lead. -/
namespace SolidGeometry.Grammar

variable {text rest : List Char} {k : Nat}

/-- An item before a token can be taken up behind the separators. -/
private theorem exists_skipped {i : Item} (has : (closed text k).Has i) (inside : k ≤ text.length)
    (goes : i.expectsToken = true ∨ i.rule.origin = .start ∧ i.next? = none) :
    ∃ j, j ≤ text.length ∧ text.drop j = skip (text.drop k) ∧ (closed text j).Has i := by
  cases found : separators? (text.drop k) with
  | none => exact ⟨k, inside, (skip_of_separators? found).symm, has⟩
  | some n =>
    obtain ⟨_, bound, behind⟩ := separators?_bounds found
    refine ⟨k + n, ?_, ?_, closed_skip has goes found⟩
    · rw [List.length_drop] at bound
      omega
    · rw [← List.drop_drop, behind]

theorem next?_of_drop {i : Item} {s : Symbol} {row : List Symbol}
    (ahead : i.rule.symbols.drop i.dot = s :: row) : i.next? = some s := by
  rw [Item.next?, ← List.head?_drop, ahead]
  rfl

private theorem drop_advance {i : Item} {s : Symbol} {row : List Symbol}
    (ahead : i.rule.symbols.drop i.dot = s :: row) :
    i.advance.rule.symbols.drop i.advance.dot = row := by
  change i.rule.symbols.drop (i.dot + 1) = row
  rw [← List.drop_drop, ahead]
  rfl

private theorem next?_whole (k : Nat) (r : Rule) :
    (⟨k, 0 + r.symbols.length, r⟩ : Item).next? = none :=
  List.getElem?_eq_none (by simp)

/-- An item moves over the token that can be cut off, to where the others can be. -/
private theorem exists_over_token {i : Item} {t : Terminal} {n : Nat} {tokens : List Token}
    (has : (closed text k).Has i) (inside : k ≤ text.length)
    (expects : i.next? = some (.terminal t)) (found : t.match? (skip (text.drop k)) = some n)
    (after : Cut ((skip (text.drop k)).drop n) tokens rest) :
    ∃ j, j ≤ text.length ∧ Cut (text.drop j) tokens rest ∧ (closed text j).Has i.advance := by
  obtain ⟨j, within, behind, there⟩ :=
    exists_skipped has inside (.inl (expectsToken_of_terminal expects))
  rw [← behind] at found after
  rw [List.drop_drop] at after
  have bound := (match?_bounds found).2
  rw [List.length_drop] at bound
  exact ⟨j + n, by omega, after, closed_token there expects found⟩

/-- An item moves over a nonterminal of which a whole rule has been found. -/
private theorem closed_over_rule {i : Item} {n : Nonterminal} {r : Rule} {j : Nat}
    (has : (closed text k).Has i) (expects : i.next? = some (.nonterminal n))
    (member : r ∈ n.rules) (whole : (closed text j).Has ⟨k, 0 + r.symbols.length, r⟩) :
    (closed text j).Has i.advance :=
  closed_completes whole (next?_whole k r) has (by rw [expects, origin_of_mem_rules member])

/-- What a derivation of the next symbols cuts off the text, an item moves over. -/
theorem Derivation.moves {row next : List Symbol} (d : Derivation row) {i : Item}
    (has : (closed text k).Has i) (inside : k ≤ text.length)
    (ahead : i.rule.symbols.drop i.dot = row ++ next) (cut : Cut (text.drop k) d.tokens rest) :
    ∃ j, j ≤ text.length ∧ skip (text.drop j) = rest ∧
      (closed text j).Has { i with dot := i.dot + row.length } := by
  induction d generalizing k i rest next with
  | nil =>
    cases cut
    exact ⟨k, inside, rfl, has⟩
  | @token row t spelling later ih =>
    have expects := next?_of_drop ahead
    cases cut with
    | cons found after =>
      obtain ⟨j, within, after, moved⟩ := exists_over_token has inside expects found after
      obtain ⟨m, end_within, ends, arrived⟩ := ih moved within (drop_advance ahead) after
      refine ⟨m, end_within, ends, ?_⟩
      rw [List.length_cons, Nat.add_comm row.length, ← Nat.add_assoc]
      exact arrived
  | @rule row n r member parts later parts_ih later_ih =>
    have expects := next?_of_drop ahead
    obtain ⟨middle, front, back⟩ := cut.split
    obtain ⟨j, within, behind, whole⟩ := parts_ih (closed_predicts has expects member) inside
      (List.append_nil _).symm front
    have moved := closed_over_rule has expects member whole
    obtain ⟨m, end_within, ends, arrived⟩ :=
      later_ih moved within (drop_advance ahead) (back.of_skip (by rw [← behind, skip_skip]))
    refine ⟨m, end_within, ends, ?_⟩
    rw [List.length_cons, Nat.add_comm row.length, ← Nat.add_assoc]
    exact arrived

private theorem parted_cases {front back first more : List Token} {t : Token}
    (parted : front ++ back = first ++ t :: more) :
    (∃ others, first = front ++ others ∧ back = others ++ t :: more) ∨
      ∃ others, front = first ++ t :: others := by
  rcases List.append_eq_append_iff.mp parted with ⟨others, inner, behind⟩ | ⟨others, inner, behind⟩
  · exact .inl ⟨others, inner, behind⟩
  · cases others with
    | nil => exact .inl ⟨[], by simpa using inner.symm, by simpa using behind.symm⟩
    | cons u others =>
      obtain ⟨rfl, _⟩ := List.cons.inj behind
      exact .inr ⟨others, inner⟩

/-- What the first tokens of a derivation cut off the text leads to an item that expects the next
token. -/
theorem Derivation.reaches {row next : List Symbol} (d : Derivation row) {i : Item}
    (has : (closed text k).Has i) (inside : k ≤ text.length)
    (ahead : i.rule.symbols.drop i.dot = row ++ next) {first more : List Token} {t : Token}
    (parted : d.tokens = first ++ t :: more) (cut : Cut (text.drop k) first rest) :
    ∃ j, j ≤ text.length ∧ text.drop j = rest ∧
      ∃ o : Item, (closed text j).Has o ∧ o.expectsToken = true := by
  induction d generalizing k i rest next first more t with
  | nil =>
    have length := congrArg List.length parted
    simp [Derivation.tokens] at length
  | @token row u spelling later ih =>
    have expects := next?_of_drop ahead
    cases cut with
    | nil =>
      have token := expectsToken_of_terminal expects
      obtain ⟨j, within, behind, there⟩ := exists_skipped has inside (.inl token)
      exact ⟨j, within, behind, i, there, token⟩
    | cons found after =>
      obtain ⟨same, joined⟩ := List.cons.inj parted
      obtain rfl := congrArg Token.terminal same
      obtain ⟨j, within, after, moved⟩ := exists_over_token has inside expects found after
      exact ih moved within (drop_advance ahead) joined after
  | @rule row n r member parts later parts_ih later_ih =>
    have expects := next?_of_drop ahead
    have begun := closed_predicts has expects member
    -- The next token belongs to this nonterminal or to what comes behind it.
    rcases parted_cases parted with ⟨others, rfl, behind⟩ | ⟨others, own⟩
    · obtain ⟨middle, front, back⟩ := cut.split
      obtain ⟨j, within, left, whole⟩ :=
        parts.moves begun inside (List.append_nil _).symm front
      have moved := closed_over_rule has expects member whole
      exact later_ih moved within (drop_advance ahead) behind
        (back.of_skip (by rw [← left, skip_skip]))
    · exact parts_ih begun inside (List.append_nil _).symm own cut

/-- The item of a rule of the start behind the tokens of a derivation, and behind what separators
follow these. -/
private theorem exists_whole {r : Rule} (member : r ∈ Nonterminal.start.rules)
    (parts : Derivation r.symbols) (cut : Cut text parts.tokens rest) :
    ∃ j, j ≤ text.length ∧ text.drop j = rest ∧
      (closed text j).Has ⟨0, 0 + r.symbols.length, r⟩ := by
  have begun : (closed text 0).Has ⟨0, 0, r⟩ := closed_starts member
  obtain ⟨j, within, ends, whole⟩ :=
    parts.moves begun (Nat.zero_le _) (List.append_nil _).symm cut
  obtain ⟨m, end_within, behind, there⟩ :=
    exists_skipped whole within (.inr ⟨origin_of_mem_rules member, next?_whole 0 r⟩)
  exact ⟨m, end_within, behind.trans ends, there⟩

/-- Every derivation of a text shows as a whole reading at its end. -/
theorem Derivation.Spells.exists_reading {d : Derivation [.nonterminal .start]}
    (spells : d.Spells text) :
    ∃ e ∈ (closed text text.length).column, e.isReading = true := by
  cases d with
  | rule r member parts later =>
    cases later with
    | nil =>
      obtain ⟨m, within, behind, there⟩ := exists_whole member parts
        (by simpa [Derivation.Spells, Derivation.tokens] using spells)
      have last : m = text.length := by
        have length := congrArg List.length behind
        simp only [List.length_drop, List.length_nil] at length
        omega
      subst last
      have finished := next?_whole 0 r
      obtain ⟨e, present, same⟩ := there.mem_column (expectsToken_of_finished finished)
      refine ⟨e, present, ?_⟩
      simp only [Entry.isReading, same, origin_of_mem_rules member, finished]
      rfl

/-- What the first tokens of a sentence cut off a text leads to an item. -/
theorem Derivation.exists_item (d : Derivation [.nonterminal .start]) {first : List Token}
    (front : first <+: d.tokens) (cut : Cut text first rest) :
    ∃ j, j ≤ text.length ∧ text.drop j = rest ∧ ∃ o, (closed text j).Has o := by
  cases d with
  | rule r member parts later =>
    cases later with
    | nil =>
      obtain ⟨more, joined⟩ := front
      rw [Derivation.tokens, Derivation.tokens, List.append_nil] at joined
      cases more with
      | nil =>
        rw [List.append_nil] at joined
        obtain ⟨j, within, behind, whole⟩ := exists_whole member parts (joined ▸ cut)
        exact ⟨j, within, behind, _, whole⟩
      | cons t more =>
        have begun : (closed text 0).Has ⟨0, 0, r⟩ := closed_starts member
        obtain ⟨j, within, behind, o, has, _⟩ :=
          parts.reaches begun (Nat.zero_le _) (List.append_nil _).symm joined.symm cut
        exact ⟨j, within, behind, o, has⟩

end SolidGeometry.Grammar
