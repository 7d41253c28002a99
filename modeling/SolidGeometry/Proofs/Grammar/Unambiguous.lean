import SolidGeometry.Proofs.Grammar.OperandReading
import SolidGeometry.Proofs.Grammar.Bracketing
import SolidGeometry.Proofs.Grammar.Exactness

namespace SolidGeometry.Grammar.Canonical

variable {row : List Symbol} {text rest out : List Char}

section

variable {slot : Slot} {o : Operand slot}

/-- An operand that something solid follows. -/
theorem Operand.Readable.next (readable : o.Readable) (only : slot ≠ .any) {s : Symbol}
    {d : Derivation (slot.symbol :: s :: row)} (solid : isSolid s = true)
    (takes : Takes d (o.write rest) out) :
    ∃ later, d = o.derive later ∧ Takes later rest out :=
  (readable rfl takes).of_solid solid fun _ stray => (stray.dead only).startless

/-- The last operand of a call. -/
theorem Operand.Readable.last (readable : o.Readable) (only : slot ≠ .any)
    {d : Derivation [slot.symbol]} (takes : Takes d (o.write rest) out) :
    (d = o.derive .nil ∧ out = skip rest) ∨ Off out := by
  rcases (readable rfl takes).at_end with exact | ⟨middle, stray, rfl⟩
  · exact .inl exact
  · exact .inr (Off.skip (stray.dead only).left)

end

theorem Call.readable_vectorFunction (name : Name .vectorFunction) {operand : Operand .vector}
    (readable : operand.Readable) : (Call.vectorFunction name operand).Readable :=
  fun _ ahead takes => Shape.vectorFunction.reads_unique (by decide) name (by decide)
    (fun inner => readable.last nofun inner) ahead takes

/-- Calls of two vectors are read alike. -/
private theorem reads_pair {first second : Operand .vector} (readable : first.Readable)
    (secondReadable : second.Readable)
    {d : Derivation [.nonterminal .vectorOperand, .nonterminal .vectorOperand]}
    (takes : Takes d (first.write (' ' :: second.write rest)) out) :
    (d = first.derive (second.derive .nil) ∧ out = skip rest) ∨ Off out := by
  obtain ⟨last, rfl, behind⟩ := readable.next nofun rfl takes
  rcases secondReadable.last nofun behind.past_blank with ⟨rfl, ended⟩ | off
  · exact .inl ⟨rfl, ended⟩
  · exact .inr off

theorem Call.readable_pairFunction (name : Name .pairFunction) {first second : Operand .vector}
    (readable : first.Readable) (secondReadable : second.Readable) :
    (Call.pairFunction name first second).Readable :=
  fun _ ahead takes => Shape.pairFunction.reads_unique (by decide) name (by decide)
    (fun inner => reads_pair readable secondReadable inner) ahead takes

theorem Call.readable_pointOnLine (name : Name .lwith) {operand : Operand .line}
    (t : PlainNumeral) (readable : operand.Readable) :
    (Call.pointOnLine name operand t).Readable := by
  intro row text rest out d closes ahead takes
  refine Shape.pointOnLine.reads_unique (by decide) name (by decide) (fun inner => ?_) ahead takes
  obtain ⟨number, rfl, behind⟩ := readable.next nofun rfl inner
  obtain ⟨last, rfl, ended⟩ := behind.past_blank.numeral t.toNumeral
    (t.toNumeral.skip_append closes.ends) closes.ends
  cases last
  cases ended.cut
  exact .inl ⟨rfl, rfl⟩

theorem Call.readable_planeFunction (name : Name .planeFunction) {operand : Operand .plane}
    (readable : operand.Readable) : (Call.planeFunction name operand).Readable :=
  fun _ ahead takes => Shape.planeFunction.reads_unique (by decide) name (by decide)
    (fun inner => readable.last nofun inner) ahead takes

theorem Call.readable_pointOnPlane (name : Name .pwith) {operand : Operand .span}
    (s t : PlainNumeral) (readable : operand.Readable) :
    (Call.pointOnPlane name operand s t).Readable := by
  intro row text rest out d closes ahead takes
  refine Shape.pointOnPlane.reads_unique (by decide) name (by decide) (fun inner => ?_) ahead takes
  obtain ⟨numbers, rfl, behind⟩ := readable.next nofun rfl inner
  obtain ⟨number, rfl, behind_s⟩ :=
    behind.past_blank.numeral s.toNumeral (s.toNumeral.skip_append rfl) rfl
  obtain ⟨last, rfl, ended⟩ := behind_s.past_blank.numeral t.toNumeral
    (t.toNumeral.skip_append closes.ends) closes.ends
  cases last
  cases ended.cut
  exact .inl ⟨rfl, rfl⟩

theorem Call.readable_lineThroughPoints (name : Name .line) {first second : Operand .vector}
    (readable : first.Readable) (secondReadable : second.Readable) :
    (Call.lineThroughPoints name first second).Readable :=
  fun _ ahead takes => Shape.lineThroughPoints.reads_unique (by decide) name (by decide)
    (fun inner => reads_pair readable secondReadable inner) ahead takes

private theorem planeShape {other : Shape} (listed : other ∈ shapes) (head : other.head = .plane) :
    other = .planeThroughThree ∨ other = .planeThroughTwo := by
  revert other
  decide

/-- An operand for a vector begins with a bracket. -/
private theorem off_operand (o : Operand .vector) (rest : List Char) :
    Off (' ' :: o.write rest) := by
  have bracketed : ∃ more, o.write rest = '(' :: more := by
    cases o with
    | nested c => exact ⟨_, rfl⟩
    | literal l fits =>
      cases l with
      | plane a b c e => cases fits
      | _ => exact ⟨_, rfl⟩
  obtain ⟨more, shape⟩ := bracketed
  exact ⟨'(', more, by rw [shape]; rfl, by decide⟩

/-- A text of three operands is not read as two: the third one would be left. -/
theorem Call.readable_planeThroughThree (name : Name .plane) {first second third : Operand .vector}
    (readable : first.Readable) (secondReadable : second.Readable)
    (thirdReadable : third.Readable) :
    (Call.planeThroughThree name first second third).Readable := by
  intro row text rest out d closes ahead takes
  refine Shape.planeThroughThree.reads (by decide) name (fun inner => ?_) ?_ ahead takes
  · obtain ⟨two, rfl, behind⟩ := readable.next nofun rfl inner
    rcases reads_pair secondReadable thirdReadable behind.past_blank with ⟨rfl, ended⟩ | off
    · exact .inl ⟨rfl, ended⟩
    · exact .inr off
  · intro other listed head differs parts middle inner
    obtain rfl := (planeShape listed head).resolve_left differs
    rcases reads_pair readable secondReadable inner with ⟨_, rfl⟩ | off
    · exact (off_operand third rest).skip
    · exact off

/-- Nor is a text of two operands read as three: nothing begins behind them. -/
theorem Call.readable_planeThroughTwo (name : Name .plane) {first second : Operand .vector}
    (readable : first.Readable) (secondReadable : second.Readable) :
    (Call.planeThroughTwo name first second).Readable := by
  intro row text rest out d closes ahead takes
  refine Shape.planeThroughTwo.reads (by decide) name
    (fun inner => reads_pair readable secondReadable inner) ?_ ahead takes
  intro other listed head differs parts middle inner
  obtain rfl := (planeShape listed head).resolve_right differs
  obtain ⟨two, rfl, behind⟩ := readable.next nofun rfl inner
  obtain ⟨last, rfl, behind_second⟩ := secondReadable.next nofun rfl behind.past_blank
  exact absurd closes.startless (not_startless last rfl (by decide) behind_second.cut)

/-- Of two operands of any kind the first is not read into the second, which would be left with
nothing. -/
theorem Call.readable_generic (name : Name .generic) {first second : Operand .any}
    (readable : first.Readable) (secondReadable : second.Readable) :
    (Call.generic name first second).Readable := by
  intro row text rest out d closes ahead takes
  refine Shape.generic.reads_unique (by decide) name (by decide) (fun inner => ?_) ahead takes
  cases readable rfl inner with
  | exact later same behind =>
    rcases (secondReadable rfl behind.past_blank).at_end with ⟨rfl, ended⟩ | ⟨middle, off, rfl⟩
    · exact .inl ⟨same, ended⟩
    · rcases off with dead | ⟨_, further⟩
      · exact .inr (Off.skip dead.left)
      · exact absurd further (not_further closes)
  | astray later off behind =>
    have solid := not_startless later rfl (by decide) behind.cut
    rcases off with dead | ⟨_, further⟩
    · exact absurd dead.startless solid
    · exact absurd (startless_of_further second closes further) solid

mutual

theorem Call.readable : ∀ c : Call, c.Readable
  | .vectorFunction name operand => Call.readable_vectorFunction name operand.readable
  | .pairFunction name first second =>
    Call.readable_pairFunction name first.readable second.readable
  | .pointOnLine name operand t => Call.readable_pointOnLine name t operand.readable
  | .planeFunction name operand => Call.readable_planeFunction name operand.readable
  | .pointOnPlane name operand s t => Call.readable_pointOnPlane name s t operand.readable
  | .lineThroughPoints name first second =>
    Call.readable_lineThroughPoints name first.readable second.readable
  | .planeThroughThree name first second third =>
    Call.readable_planeThroughThree name first.readable second.readable third.readable
  | .planeThroughTwo name first second =>
    Call.readable_planeThroughTwo name first.readable second.readable
  | .generic name first second => Call.readable_generic name first.readable second.readable

theorem Operand.readable {slot : Slot} : ∀ o : Operand slot, o.Readable
  | .literal l fits => Operand.readable_literal l fits
  | .nested c => Operand.readable_nested c.readable

end

theorem Expression.spells (e : Expression) : e.derivation.Spells e.text := by
  cases e with
  | literal l =>
    rw [Derivation.Spells, Expression.derivation, tokens_lift, Kind.tokens_toLiteral]
    exact l.cut .nil
  | call c =>
    rw [Derivation.Spells, Expression.derivation, tokens_lift]
    exact c.cut rfl .nil

theorem Expression.unique (e : Expression) {d : Derivation [.nonterminal .start]}
    (spells : d.Spells e.text) : d = e.derivation := by
  have takes : Takes d e.text [] := ⟨spells, e.unclosed_eq_zero spells⟩
  obtain ⟨order, m, listed, member, inner, rfl⟩ := exists_unit [(0, .call), (1, .literal)] rfl d
  have taken := takes_lift (by decide) takes
  simp only [List.mem_cons, List.not_mem_nil, or_false, Prod.mk.injEq] at listed
  rcases listed with ⟨rfl, rfl⟩ | ⟨rfl, rfl⟩
  · cases e with
    | literal l => exact absurd taken.cut (not_read_call_literal l)
    | call c =>
      rcases (c.readable (.inl rfl) rfl taken).at_end with ⟨rfl, _⟩ | ⟨middle, off, ended⟩
      · rfl
      · obtain ⟨c, more, ahead, _⟩ := off
        cases ended.trans ahead
  · cases e with
    | call c => exact absurd taken.cut (not_read_literal_call c)
    | literal l =>
      obtain ⟨kind, literal, rfl⟩ := exists_kind inner
      cases reads_literal l (l.skip_write []) (Kind.takes_toLiteral taken) with
      | exact later same canonical behind =>
        subst same
        cases later
        cases canonical
        rfl
      | astray later off behind =>
        cases later
        rcases off with dead | ⟨_, further⟩
        · obtain ⟨c, more, ahead, _⟩ := dead.left
          cases (skip_of_cut_nil behind.cut).symm.trans ahead
        · exact absurd further (not_further (.inl rfl))

theorem Expression.read_text (e : Expression) : read (String.ofList e.text) = .ok e.tree := by
  rw [read, String.toList_ofList, e.trim_text]
  rcases readTrimmed_cases e.text with ⟨d, tree, spells, single, found⟩ | ⟨none, _⟩
  · have canonical := e.unique spells
    subst canonical
    rw [e.trees_derivation] at single
    cases single
    exact found
  · exact absurd e.spells (none e.derivation)

/-- A fully bracketed expression has exactly one derivation, and is read as its own tree. -/
theorem Expression.read_unique (e : Expression) :
    (∀ d : Derivation [.nonterminal .start], d.Spells e.text ↔ d = e.derivation) ∧
      read (String.ofList e.text) = .ok e.tree :=
  ⟨fun _ => ⟨e.unique, fun same => same ▸ e.spells⟩, e.read_text⟩

end SolidGeometry.Grammar.Canonical
