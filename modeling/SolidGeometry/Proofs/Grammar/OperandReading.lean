import SolidGeometry.Proofs.Grammar.CallReading
import SolidGeometry.Proofs.Grammar.CanonicalSpelling

namespace SolidGeometry.Grammar.Canonical
open Number

variable {row : List Symbol} {text rest out : List Char}

private theorem exists_lift {n m : Nonterminal} {order : Nat}
    (member : unitRule order n m ∈ n.rules) (parts : Derivation [.nonterminal m])
    (later : Derivation row) :
    ∃ d, Derivation.rule (unitRule order n m) member parts later = lift order member d := by
  cases parts with
  | rule r inner parts last =>
    cases last
    exact ⟨.rule r inner parts later, rfl⟩

/-- A derivation of a nonterminal that only passes on passes on to one of a few. -/
theorem exists_unit {n : Nonterminal} (units : List (Nat × Nonterminal))
    (rules : n.rules = units.map fun unit => unitRule unit.1 n unit.2)
    (d : Derivation (.nonterminal n :: row)) :
    ∃ order m, (order, m) ∈ units ∧ ∃ member : unitRule order n m ∈ n.rules, ∃ inner,
      d = lift order member inner := by
  cases d with
  | rule r member parts later =>
    have mapped := member
    rw [rules] at mapped
    obtain ⟨⟨order, m⟩, listed, rfl⟩ := List.mem_map.mp mapped
    obtain ⟨inner, same⟩ := exists_lift member parts later
    exact ⟨order, m, listed, member, inner, same⟩

theorem exists_kind (d : Derivation (.nonterminal .literal :: row)) :
    ∃ kind, ∃ inner : Derivation (Kind.symbol kind :: row), d = kind.toLiteral inner := by
  obtain ⟨order, m, listed, member, inner, rfl⟩ :=
    exists_unit [(0, .vector), (1, .line), (2, .plane), (3, .span)] rfl d
  simp only [List.mem_cons, List.not_mem_nil, or_false, Prod.mk.injEq] at listed
  rcases listed with ⟨rfl, rfl⟩ | ⟨rfl, rfl⟩ | ⟨rfl, rfl⟩ | ⟨rfl, rfl⟩
  · exact ⟨.vector, inner, rfl⟩
  · exact ⟨.line, inner, rfl⟩
  · exact ⟨.plane, inner, rfl⟩
  · exact ⟨.span, inner, rfl⟩

/-- In its place stands a literal of a kind that it allows, or a nested call. -/
theorem exists_place (slot : Slot) (d : Derivation (slot.symbol :: row)) :
    (∃ kind, ∃ fits : slot.allows kind = true, ∃ inner, d = slot.ofKind kind fits inner) ∨
      ∃ inner, d = slot.ofNested inner := by
  cases slot with
  | vector =>
    obtain ⟨order, m, listed, member, inner, rfl⟩ :=
      exists_unit [(0, .vector), (1, .nested)] rfl d
    simp only [List.mem_cons, List.not_mem_nil, or_false, Prod.mk.injEq] at listed
    rcases listed with ⟨rfl, rfl⟩ | ⟨rfl, rfl⟩
    · exact .inl ⟨.vector, rfl, inner, rfl⟩
    · exact .inr ⟨inner, rfl⟩
  | line =>
    obtain ⟨order, m, listed, member, inner, rfl⟩ :=
      exists_unit [(0, .line), (1, .nested)] rfl d
    simp only [List.mem_cons, List.not_mem_nil, or_false, Prod.mk.injEq] at listed
    rcases listed with ⟨rfl, rfl⟩ | ⟨rfl, rfl⟩
    · exact .inl ⟨.line, rfl, inner, rfl⟩
    · exact .inr ⟨inner, rfl⟩
  | plane =>
    obtain ⟨order, m, listed, member, inner, rfl⟩ :=
      exists_unit [(0, .plane), (1, .span), (2, .nested)] rfl d
    simp only [List.mem_cons, List.not_mem_nil, or_false, Prod.mk.injEq] at listed
    rcases listed with ⟨rfl, rfl⟩ | ⟨rfl, rfl⟩ | ⟨rfl, rfl⟩
    · exact .inl ⟨.plane, rfl, inner, rfl⟩
    · exact .inl ⟨.span, rfl, inner, rfl⟩
    · exact .inr ⟨inner, rfl⟩
  | span =>
    obtain ⟨order, m, listed, member, inner, rfl⟩ :=
      exists_unit [(0, .span), (1, .nested)] rfl d
    simp only [List.mem_cons, List.not_mem_nil, or_false, Prod.mk.injEq] at listed
    rcases listed with ⟨rfl, rfl⟩ | ⟨rfl, rfl⟩
    · exact .inl ⟨.span, rfl, inner, rfl⟩
    · exact .inr ⟨inner, rfl⟩
  | any =>
    obtain ⟨order, m, listed, member, inner, rfl⟩ :=
      exists_unit [(0, .literal), (1, .nested)] rfl d
    simp only [List.mem_cons, List.not_mem_nil, or_false, Prod.mk.injEq] at listed
    rcases listed with ⟨rfl, rfl⟩ | ⟨rfl, rfl⟩
    · obtain ⟨kind, literal, rfl⟩ := exists_kind inner
      exact .inl ⟨kind, rfl, literal, rfl⟩
    · exact .inr ⟨inner, rfl⟩

theorem unclosed_lift {n m : Nonterminal} {order : Nat} {member : unitRule order n m ∈ n.rules}
    (other : n ≠ .vector) (d : Derivation (.nonterminal m :: row)) :
    unclosed (lift order member d) = unclosed d := by
  cases d with
  | rule r inner parts later => simp [lift, unclosed, other]

theorem takes_lift {n m : Nonterminal} {order : Nat} {member : unitRule order n m ∈ n.rules}
    {d : Derivation (.nonterminal m :: row)} (other : n ≠ .vector)
    (takes : Takes (lift order member d) text out) : Takes d text out :=
  ⟨tokens_lift order member d ▸ takes.cut, (unclosed_lift other d).symm.trans takes.whole⟩

theorem Kind.unclosed_toLiteral (kind : Kind) (d : Derivation (kind.symbol :: row)) :
    unclosed (kind.toLiteral d) = unclosed d := by
  cases kind <;> exact unclosed_lift (by decide) d

theorem Kind.takes_toLiteral {kind : Kind} {d : Derivation (kind.symbol :: row)}
    (takes : Takes (kind.toLiteral d) text out) : Takes d text out :=
  ⟨kind.tokens_toLiteral d ▸ takes.cut, (kind.unclosed_toLiteral d).symm.trans takes.whole⟩

theorem Slot.takes_ofKind {slot : Slot} {kind : Kind} {fits : slot.allows kind = true}
    {d : Derivation (kind.symbol :: row)} (takes : Takes (slot.ofKind kind fits d) text out) :
    Takes d text out := by
  refine ⟨slot.tokens_ofKind kind fits d ▸ takes.cut, ?_⟩
  rw [← takes.whole]
  cases slot with
  | any => exact ((unclosed_lift (by decide) _).trans (kind.unclosed_toLiteral d)).symm
  | _ => cases kind <;> first | exact (unclosed_lift (by decide) d).symm | cases fits

theorem Slot.takes_ofNested {slot : Slot} {d : Derivation (.nonterminal .nested :: row)}
    (takes : Takes (slot.ofNested d) text out) : Takes d text out := by
  refine ⟨slot.tokens_ofNested d ▸ takes.cut, ?_⟩
  rw [← takes.whole]
  cases slot <;> exact (unclosed_lift (by decide) d).symm

/-- An operand is read canonically, or astray, which takes in more than it only in a place for
operands of any kind. -/
def Operand.Readable {slot : Slot} (o : Operand slot) : Prop :=
  ∀ {row : List Symbol} {text rest out : List Char} {d : Derivation (slot.symbol :: row)},
    skip text = skip (o.write rest) → Takes d text out →
      Reads (fun later => o.derive later) rest (Stray (slot = .any) rest) d out

def Call.Readable (c : Call) : Prop :=
  ∀ {row : List Symbol} {text rest out : List Char} {d : Derivation (.nonterminal .call :: row)},
    Closes rest → skip text = skip (c.write rest) → Takes d text out →
      Reads (fun later => c.derive later) rest Off d out

private theorem any_of_exceeds {slot : Slot} {kind other : Kind} (fits : slot.allows kind = true)
    (otherFits : slot.allows other = true) (exceeds : kind.exceeds other) : slot = .any := by
  cases slot <;> cases kind <;> cases other <;>
    simp_all [Slot.allows, Kind.exceeds, Kind.count]

/-- A literal begins with a number, or a bracket with a number in it, and so not like a nested
call. -/
private theorem not_read_nested (l : Literal) {d : Derivation (.nonterminal .nested :: row)}
    (ahead : skip text = l.write rest) : ¬ Cut text d.tokens out := by
  intro cut
  have letterless : ∀ {c : Char}, isDigit c = true ∨ c = '-' → isLetter c = false := by
    rintro c (digit | rfl)
    · exact not_isLetter_of_isDigit digit
    · rfl
  cases d with
  | rule r member parts later =>
    obtain ⟨middle, inner, _⟩ := cut.split
    have only : ∀ r ∈ Nonterminal.nested.rules, r = nestedRule := by decide
    cases only r member
    have bracketed : ∀ (v : Triple) {more : List Char}, skip text = v.write more → False := by
      intro v more ahead
      obtain ⟨call, rfl, behind⟩ := read_token (t := .openNested) (w := ['(']) ahead rfl inner
      obtain ⟨c, others, shape, front⟩ := v.x.exists_cons
      exact not_read_call ((v.x.toNumeral.skip_append rfl).trans (congrArg (· ++ _) shape))
        (letterless front) behind
    cases l with
    | vector v => exact bracketed v ahead
    | line base direction => exact bracketed base ahead
    | span base first second => exact bracketed base ahead
    | plane a b c e =>
      obtain ⟨digit, others, shape, front⟩ := a.exists_cons
      refine not_read_token (d := parts) ?_ inner
      rw [ahead, Literal.write, shape]
      refine match?_of_not_begins _ (Bool.eq_false_iff.mpr fun begins => ?_)
      simp only [Terminal.begins, Terminal.pattern, List.any_cons, List.any_nil, Bool.or_false,
        beq_iff_eq] at begins
      cases begins
      rcases front with digit | minus
      · exact absurd digit (by decide)
      · exact absurd minus (by decide)

theorem Operand.readable_literal {slot : Slot} (l : Literal) (fits : slot.allows l.kind = true) :
    (Operand.literal l fits).Readable := by
  intro row text rest out d ahead takes
  rw [Operand.write, l.skip_write] at ahead
  rcases exists_place slot d with ⟨kind, kindFits, inner, rfl⟩ | ⟨inner, rfl⟩
  · cases reads_literal l ahead (Slot.takes_ofKind takes) with
    | exact later same canonical behind =>
      subst same
      cases canonical
      exact .exact later rfl behind
    | astray later off behind =>
      exact .astray later (off.imp fun exceeds => any_of_exceeds kindFits fits exceeds) behind
  · exact absurd (Slot.takes_ofNested takes).cut (not_read_nested l ahead)

theorem Operand.readable_nested {slot : Slot} {c : Call} (readable : c.Readable) :
    (Operand.nested c : Operand slot).Readable := by
  intro row text rest out d ahead takes
  obtain ⟨letter, more, front, isLetter⟩ := c.exists_cons (')' :: rest)
  have bracketed : skip text = '(' :: letter :: more := by
    rw [ahead, Operand.write, front]
    rfl
  rcases exists_place slot d with ⟨kind, fits, inner, rfl⟩ | ⟨inner, rfl⟩
  · by_cases plane : kind = .plane
    · subst plane
      exact absurd (Slot.takes_ofKind takes).cut (not_read_plane bracketed)
    · obtain ⟨parts, later, middle, _, vector, _⟩ := exists_fold plane (Slot.takes_ofKind takes)
      exact absurd vector.cut (not_read_bracketed bracketed isLetter)
  · cases inner with
    | rule r member parts later =>
      obtain ⟨middle, inner, outer⟩ := (Slot.takes_ofNested takes).split
      have only : ∀ r ∈ Nonterminal.nested.rules, r = nestedRule := by decide
      cases only r member
      obtain ⟨call, rfl, behind⟩ : ∃ call, parts = .token .openNested ['('] call ∧
          Takes call (c.write (')' :: rest)) middle := inner.token ahead rfl
      cases readable (.inr ⟨rest, rfl⟩) rfl behind with
      | exact closer same closing =>
        obtain ⟨last, rfl, ended⟩ := closing.token (t := .closeNested) (w := [')']) rfl rfl
        cases last
        cases ended.cut
        exact .exact later (by rw [same]; rfl) (outer.of_skip (skip_skip _))
      | astray closer off closing =>
        obtain ⟨c, more, ahead, other⟩ := off
        refine absurd closing.cut (not_read_token (d := closer) ?_)
        rw [ahead]
        refine match?_of_not_begins more ?_
        simpa [Terminal.begins, Terminal.pattern] using other.symm

private theorem Literal.exists_chain (l : Literal) (linked : l.kind ≠ .plane) (rest : List Char) :
    ∃ (v : Triple) (links : List (Char × Triple)), (∀ link ∈ links, link.1 = 's' ∨ link.1 = 't') ∧
      l.write rest = v.write (writeChain rest links) := by
  cases l with
  | vector v => exact ⟨v, [], by simp, rfl⟩
  | line base direction => exact ⟨base, [('t', direction)], by simp, rfl⟩
  | span base first second => exact ⟨base, [('s', first), ('t', second)], by simp, rfl⟩
  | plane a b c e => exact absurd rfl linked

private theorem linkless_literal (l : Literal) (ahead : skip text = l.write rest) :
    Linkless text := by
  cases l with
  | plane a b c e => exact linkless_numeral a ahead
  | vector v => exact .of_begins ahead (by decide)
  | line base direction => exact .of_begins ahead (by decide)
  | span base first second => exact .of_begins ahead (by decide)

/-- Where a chain goes on into the last operand of a call, it takes it in and leaves none. -/
theorem startless_of_further {slot : Slot} (o : Operand slot) (closes : Closes rest)
    (further : Further (' ' :: o.write rest) out) : Startless out := by
  obtain ⟨m, d, takes⟩ := further
  cases o with
  | nested c =>
    obtain ⟨letter, more, front, isLetter⟩ := c.exists_cons (')' :: rest)
    have ahead : skip (' ' :: (Operand.nested c : Operand slot).write rest) =
        '(' :: letter :: more := by
      rw [Operand.write, front]
      rfl
    have linkless := Linkless.of_begins ahead (by decide)
    obtain ⟨vectors, _, behind⟩ := read_no_link linkless takes.cut
    exact absurd behind (not_read_bracketed ahead isLetter)
  | literal l fits =>
    have ahead : skip (' ' :: (Operand.literal l fits).write rest) = l.write rest :=
      l.skip_write rest
    obtain ⟨vectors, same, behind⟩ := read_no_link (linkless_literal l ahead) takes.cut
    by_cases plane : l.kind = .plane
    · cases l with
      | plane a b c e => exact absurd behind (not_read_vector ahead)
      | _ => cases plane
    · obtain ⟨v, links, letters, writes⟩ := l.exists_chain plane rest
      have taken : Takes vectors (' ' :: (Operand.literal l fits).write rest) out :=
        ⟨behind, same.symm.trans takes.whole⟩
      rcases reads_vectors v letters (ahead.trans writes) taken with
        ⟨_, _, rfl⟩ | dead | ⟨_, further⟩
      · exact closes.startless.skip
      · exact dead.startless
      · exact absurd further (not_further closes)

end SolidGeometry.Grammar.Canonical
