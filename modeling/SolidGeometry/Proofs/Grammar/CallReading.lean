import SolidGeometry.Proofs.Grammar.LiteralReading

namespace SolidGeometry.Grammar.Canonical

variable {row : List Symbol} {text rest out : List Char}

/-- What is left of a text where neither it ends nor a bracket closes. -/
def Off (text : List Char) : Prop := ∃ c more, skip text = c :: more ∧ c ≠ ')'

theorem Off.skip (off : Off text) : Off (skip text) := by
  obtain ⟨c, more, ahead, other⟩ := off
  exact ⟨c, more, (skip_skip text).trans ahead, other⟩

/-- A call is read as one of a shape with its kind of name. The name of one function of vectors
begins like one of a function of planes, but no plane stands behind that. -/
theorem exists_shape {s : Shape} (member : s ∈ shapes) (name : Name s.head) {body : List Char}
    {d : Derivation (.nonterminal .call :: row)}
    (ahead : skip text = name.text.toList ++ ' ' :: body) (takes : Takes d text out) :
    ∃ other, ∃ listed : other ∈ shapes, ∃ parts later middle, other.head = s.head ∧
      d = other.derive listed name.text.toList parts later ∧ Takes parts body middle ∧
      Takes later middle out := by
  cases d with
  | rule r listed parts later =>
    obtain ⟨middle, inner, outer⟩ := takes.split
    have mapped := listed
    rw [rules_call] at mapped
    obtain ⟨other, present, rfl⟩ := List.mem_map.mp mapped
    have found := match?_name (head_mem_heads member) (head_mem_heads present) name body
    by_cases same : other.head = s.head
    · rw [if_pos same] at found
      obtain ⟨operands, rfl, behind⟩ := inner.token ahead found
      exact ⟨other, present, operands, later, middle, same, rfl, behind.past_blank, outer⟩
    · rw [if_neg same, ← ahead] at found
      split at found
      · rename_i normalize
        obtain ⟨plane, spelling⟩ := normalize
        have solid : ∀ other ∈ shapes, other.head = .planeFunction →
            other.operands = [.planeOperand] := by decide
        have operand := solid other present plane
        have letters : Startless ((Grammar.skip text).drop 6) := by
          have behind : (Grammar.skip text).drop 6 = 'i' :: 'z' :: 'e' :: ' ' :: body := by
            rw [ahead, spelling]
            rfl
          rw [behind]
          exact .of_begins rfl (by decide)
        cases parts with
        | token t word operands =>
          cases inner.cut with
          | cons taken after =>
            rw [found] at taken
            cases taken
            exact absurd letters (not_startless operands (by rw [operand]; rfl) (by decide) after)
      · exact absurd inner.cut (not_read_token found)

/-- The reading of a call of a shape, if its operands are read canonically or not at all, and those
of another shape with the same kind of name are not read in the end. -/
theorem Shape.reads {s : Shape} (member : s ∈ shapes) (name : Name s.head) {body : List Char}
    {canonical : Derivation (s.operands.map .nonterminal)}
    (own : ∀ {parts : Derivation (s.operands.map .nonterminal)} {middle : List Char},
      Takes parts body middle → (parts = canonical ∧ middle = skip rest) ∨ Off middle)
    (others : ∀ other ∈ shapes, other.head = s.head → other ≠ s →
      ∀ {parts : Derivation (other.operands.map .nonterminal)} {middle : List Char},
        Takes parts body middle → Off middle)
    {d : Derivation (.nonterminal .call :: row)}
    (ahead : skip text = skip (name.text.toList ++ ' ' :: body)) (takes : Takes d text out) :
    Reads (s.derive member name.text.toList canonical) rest Off d out := by
  obtain ⟨other, listed, parts, later, middle, head, rfl, inner, outer⟩ :=
    exists_shape member name (ahead.trans (name.skip_append (head_mem_heads member) body)) takes
  by_cases same : other = s
  · subst same
    rcases own inner with ⟨rfl, rfl⟩ | off
    · exact .exact later rfl (outer.of_skip (skip_skip _))
    · exact .astray later off outer
  · exact .astray later (others other listed head same inner) outer

/-- A call that shares its kind of name with no other shape. -/
theorem Shape.reads_unique {s : Shape} (member : s ∈ shapes) (name : Name s.head)
    {body : List Char} {canonical : Derivation (s.operands.map .nonterminal)}
    (unique : ∀ other ∈ shapes, other.head = s.head → other = s)
    (own : ∀ {parts : Derivation (s.operands.map .nonterminal)} {middle : List Char},
      Takes parts body middle → (parts = canonical ∧ middle = skip rest) ∨ Off middle)
    {d : Derivation (.nonterminal .call :: row)}
    (ahead : skip text = skip (name.text.toList ++ ' ' :: body)) (takes : Takes d text out) :
    Reads (s.derive member name.text.toList canonical) rest Off d out :=
  Shape.reads member name own
    (fun other listed head differs => absurd (unique other listed head) differs) ahead takes

end SolidGeometry.Grammar.Canonical
