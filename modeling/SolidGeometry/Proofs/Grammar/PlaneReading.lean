import SolidGeometry.Proofs.Grammar.Balance

namespace SolidGeometry.Grammar.Canonical

variable {row symbols : List Symbol} {text rest out : List Char}

def planeParts : List (List (List Symbol)) :=
  [always [.nonterminal .number], coordinate .x, always [.nonterminal .number], coordinate .y,
    always [.nonterminal .number], coordinate .z, always [.nonterminal .number],
    optional [.terminal .equals, .terminal .zero]]

theorem symbols_mem_planeParts {r : Rule} (member : r ∈ Nonterminal.plane.rules) :
    r.symbols ∈ sequences planeParts := by
  revert r
  decide +kernel

theorem eq_planeRule {r : Rule} (member : r ∈ Nonterminal.plane.rules)
    (same : r.symbols = planeRule.symbols) : r = planeRule := by
  revert r
  decide +kernel

theorem mem_sequences {part : List (List Symbol)} {parts : List (List (List Symbol))}
    (member : symbols ∈ sequences (part :: parts)) :
    ∃ choice ∈ part, ∃ others ∈ sequences parts, symbols = choice ++ others := by
  obtain ⟨choice, chosen, joined⟩ := List.mem_flatMap.mp member
  obtain ⟨others, listed, same⟩ := List.mem_map.mp joined
  exact ⟨choice, chosen, others, listed, same.symm⟩

variable {parts : List (List (List Symbol))}

private theorem read_number_part (w : Numeral) {d : Derivation symbols}
    (member : symbols ∈ sequences (always [.nonterminal .number] :: parts))
    (ahead : skip text = w.text ++ rest) (ends : Ends rest = true) (cut : Cut text d.tokens out) :
    ∃ others, ∃ later : Derivation others, others ∈ sequences parts ∧
      symbols = .nonterminal .number :: others ∧ HEq d (Numeral.derive w later) ∧
      Cut rest later.tokens out := by
  obtain ⟨choice, chosen, others, listed, rfl⟩ := mem_sequences member
  obtain rfl := List.mem_singleton.mp chosen
  obtain ⟨later, rfl, behind⟩ := read_numeral w ahead ends cut
  exact ⟨others, later, listed, rfl, HEq.rfl, behind⟩

/-- A coordinate that is marked by its bare letter. -/
private theorem read_coordinate (axis : Terminal) {c : Char} {d : Derivation symbols}
    (member : symbols ∈ sequences (coordinate axis :: always [.nonterminal .number] :: parts))
    (ahead : skip text = c :: rest) (found : axis.match? (c :: rest) = some 1)
    (other : ∀ t ∈ [Terminal.star, .number], t.begins c = false) (cut : Cut text d.tokens out) :
    ∃ others, ∃ later : Derivation others,
      others ∈ sequences (always [.nonterminal .number] :: parts) ∧
      symbols = .terminal axis :: others ∧ HEq d (Derivation.token axis [c] later) ∧
      Cut rest later.tokens out := by
  obtain ⟨choice, chosen, others, listed, rfl⟩ := mem_sequences member
  simp only [coordinate, List.mem_cons, List.not_mem_nil, or_false] at chosen
  rcases chosen with rfl | rfl | rfl
  · refine absurd cut (not_read_token ?_)
    rw [ahead]
    exact match?_of_not_begins rest (other .star (by decide))
  · obtain ⟨later, rfl, behind⟩ := read_token (w := [c]) ahead found cut
    exact ⟨others, later, listed, rfl, HEq.rfl, behind⟩
  · obtain ⟨choice, chosen, more, _, rfl⟩ := mem_sequences listed
    obtain rfl := List.mem_singleton.mp chosen
    exact absurd cut (not_read_number ahead (other .number (by decide)))

/-- A plane is read in full, or without its right side. -/
theorem reads_plane (a : PlainNumeral) (b c e : SignedNumeral)
    {d : Derivation (.nonterminal .plane :: row)}
    (ahead : skip text = (Literal.plane a b c e).write rest) (cut : Cut text d.tokens out) :
    (∃ later, d = Literal.derive later (.plane a b c e) ∧ Cut rest later.tokens out) ∨
      ∃ middle, ∃ later : Derivation row, unclosed later ≤ unclosed d ∧ Dead middle ∧
        Cut middle later.tokens out := by
  cases d with
  | rule r member parts later =>
    obtain ⟨middle, inner, outer⟩ := cut.split
    have listed := symbols_mem_planeParts member
    have whole := eq_planeRule member
    obtain ⟨order, origin, symbols, construct⟩ := r
    obtain ⟨_, at_x, from_x, rfl, rfl, behind_a⟩ :=
      read_number_part a.toNumeral listed ahead rfl inner
    obtain ⟨_, at_b, from_b, rfl, rfl, behind_x⟩ :=
      read_coordinate .x from_x rfl rfl (by decide) behind_a
    obtain ⟨_, at_y, from_y, rfl, rfl, behind_b⟩ :=
      read_number_part b.toNumeral from_b (b.toNumeral.skip_append rfl) rfl behind_x
    obtain ⟨_, at_c, from_c, rfl, rfl, behind_y⟩ :=
      read_coordinate .y from_y rfl rfl (by decide) behind_b
    obtain ⟨_, at_z, from_z, rfl, rfl, behind_c⟩ :=
      read_number_part c.toNumeral from_c (c.toNumeral.skip_append rfl) rfl behind_y
    obtain ⟨_, at_d, from_d, rfl, rfl, behind_z⟩ :=
      read_coordinate .z from_z rfl rfl (by decide) behind_c
    obtain ⟨_, at_end, from_end, rfl, rfl, behind_d⟩ :=
      read_number_part e.toNumeral from_d (e.toNumeral.skip_append rfl) rfl behind_z
    obtain ⟨choice, chosen, others, last, rfl⟩ := mem_sequences from_end
    obtain rfl := List.mem_singleton.mp last
    simp only [optional, List.mem_cons, List.not_mem_nil, or_false] at chosen
    rcases chosen with rfl | rfl
    · obtain ⟨at_zero, rfl, behind_equals⟩ :=
        read_token (t := .equals) (w := ['=']) rfl rfl behind_d
      obtain ⟨done, rfl, behind_zero⟩ :=
        read_token (t := .zero) (w := ['0']) rfl rfl behind_equals
      cases done
      cases behind_zero
      cases whole rfl
      exact .inl ⟨later, rfl, outer.of_skip (skip_skip _)⟩
    · cases at_end
      cases behind_d
      refine .inr ⟨_, later, ?_, .of_begins rfl (by decide) (by decide), outer⟩
      exact Nat.le_add_left _ _

/-- Nothing of a plane stands where a call or the text ends. -/
private theorem not_read_part_at_end {axis : Terminal} {d : Derivation symbols}
    (member : symbols ∈ sequences (coordinate axis :: always [.nonterminal .number] :: parts))
    (other : axis ∈ [Terminal.x, .y, .z]) (closes : Closes text) : ¬ Cut text d.tokens out := by
  intro cut
  have closed : ∀ t ∈ [Terminal.x, .y, .z, .star], t.match? (skip text) = none := by
    rcases closes with rfl | ⟨more, rfl⟩
    · exact fun t _ => match?_nil t
    · exact fun t listed => match?_of_not_begins more (by revert t; decide)
  obtain ⟨choice, chosen, others, listed, rfl⟩ := mem_sequences member
  simp only [coordinate, List.mem_cons, List.not_mem_nil, or_false] at chosen
  rcases chosen with rfl | rfl | rfl
  · exact not_read_token (closed .star (by decide)) cut
  · exact not_read_token (closed axis (List.mem_append_left [Terminal.star] other)) cut
  · obtain ⟨choice, chosen, more, _, rfl⟩ := mem_sequences listed
    obtain rfl := List.mem_singleton.mp chosen
    exact not_startless d rfl (by decide) cut closes.startless

theorem not_read_plane_number (t : PlainNumeral) (closes : Closes rest)
    {d : Derivation (.nonterminal .plane :: row)} (ahead : skip text = t.text ++ rest) :
    ¬ Cut text d.tokens out := by
  intro cut
  cases d with
  | rule r member parts later =>
    obtain ⟨middle, inner, _⟩ := cut.split
    have listed := symbols_mem_planeParts member
    obtain ⟨order, origin, symbols, construct⟩ := r
    obtain ⟨_, at_end, from_x, rfl, rfl, behind⟩ :=
      read_number_part t.toNumeral listed ahead closes.ends inner
    exact not_read_part_at_end from_x (by decide) closes behind

theorem not_read_plane_numbers (s t : PlainNumeral) (closes : Closes rest)
    {d : Derivation (.nonterminal .plane :: row)}
    (ahead : skip text = s.text ++ ' ' :: (t.text ++ rest)) : ¬ Cut text d.tokens out := by
  intro cut
  cases d with
  | rule r member parts later =>
    obtain ⟨middle, inner, _⟩ := cut.split
    have listed := symbols_mem_planeParts member
    obtain ⟨order, origin, symbols, construct⟩ := r
    obtain ⟨_, at_x, from_x, rfl, rfl, behind⟩ :=
      read_number_part s.toNumeral listed ahead rfl inner
    have unmarked : ∀ u ∈ [Terminal.star, .x],
        u.match? (skip (' ' :: (t.text ++ rest))) = none := by
      intro u marks
      obtain ⟨c, more, shape, front⟩ := t.exists_cons
      have solid : skip (' ' :: (t.text ++ rest)) = c :: (more ++ rest) :=
        (t.toNumeral.skip_append closes.ends).trans (congrArg (· ++ rest) shape)
      rw [solid]
      refine match?_of_not_begins _ (Bool.eq_false_iff.mpr fun begins => ?_)
      simp only [List.mem_cons, List.not_mem_nil, or_false] at marks
      rcases marks with rfl | rfl <;>
        simp only [Terminal.begins, Terminal.pattern, List.any_cons, List.any_nil, Bool.or_false,
          beq_iff_eq] at begins <;>
        cases begins <;> rcases front with digit | minus <;>
        first | exact absurd digit (by decide) | exact absurd minus (by decide)
    obtain ⟨choice, chosen, others, from_number, rfl⟩ := mem_sequences from_x
    simp only [coordinate, List.mem_cons, List.not_mem_nil, or_false] at chosen
    rcases chosen with rfl | rfl | rfl
    · exact not_read_token (unmarked .star (by decide)) behind
    · exact not_read_token (unmarked .x (by decide)) behind
    · obtain ⟨_, at_end, from_y, rfl, rfl, behind_t⟩ := read_number_part t.toNumeral from_number
        (t.toNumeral.skip_append closes.ends) closes.ends behind.past_blank
      exact not_read_part_at_end from_y (by decide) closes behind_t

end SolidGeometry.Grammar.Canonical
