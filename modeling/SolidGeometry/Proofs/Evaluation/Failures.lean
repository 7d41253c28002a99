import SolidGeometry.Expression
import SolidGeometry.Proofs.Geometry.Faults
import SolidGeometry.Proofs.Grammar.Exactness
import SolidGeometry.Proofs.Grammar.Tokens

namespace SolidGeometry
open Grammar

/-- What a symbol of the grammar leaves for the construct around it. -/
inductive Part where
  /-- The text of a number. -/
  | numeral
  /-- A name of one kind of token. -/
  | name (t : Terminal)
  | number
  | element (kind : Kind)
  /-- An operand of a call, which may be a nested call and so have any value. -/
  | operand
  deriving DecidableEq

/-- Whether a value is a part of a kind. -/
def Part.Admits : Part → Value → Prop
  | numeral, v => ∃ s literal, v = .text s ∧ Number.Literal.ofText? s = some literal
  | name t, v => ∃ s, v = .text s ∧ s ∈ t.spellings
  | number, v => ∃ n, v = .number n
  | element kind, v => ∃ e, v = .element e ∧ e.kind = kind
  | operand, _ => True

theorem Part.Admits.exists_vector {v : Value} (admits : (element .vector).Admits v) :
    ∃ u, v = .ofVector u := by
  obtain ⟨e, rfl, kind⟩ := admits
  cases e with
  | vector u => exact ⟨u, rfl⟩
  | line l => cases kind
  | plane p => cases kind
  | span s => cases kind

def Grammar.Symbol.parts : Symbol → List Part
  | .terminal .number => [.numeral]
  | .terminal t => if t.isKept then [.name t] else []
  | .nonterminal .number => [.number]
  | .nonterminal .vector => [.element .vector]
  | .nonterminal .line => [.element .line]
  | .nonterminal .span => [.element .span]
  | .nonterminal .plane => [.element .plane]
  | .nonterminal .link => []
  | .nonterminal _ => [.operand]

/-- The parts that a construct is built from. -/
def Grammar.Construct.arities : Construct → List (List Part)
  | .number => [[.numeral]]
  | .vector => [[.number, .number, .number]]
  | .line => [[.element .vector, .element .vector]]
  | .span => [[.element .vector, .element .vector, .element .vector]]
  | .plane => [[.number, .number, .number, .number]]
  | .vectorFunction =>
    [[.name .vectorFunction, .operand], [.name .pairFunction, .operand, .operand]]
  | .pointOnLine => [[.operand, .number]]
  | .planeFunction => [[.name .planeFunction, .operand]]
  | .pointOnPlane => [[.operand, .number, .number]]
  | .lineThroughPoints => [[.operand, .operand]]
  | .planeThroughPoints => [[.operand, .operand], [.operand, .operand, .operand]]
  | .generic => [[.name .generic, .operand, .operand]]

/-- What a construct is a part of others as. -/
def Grammar.Construct.part : Construct → Part
  | .number => .number
  | .vector => .element .vector
  | .line => .element .line
  | .span => .element .span
  | .plane => .element .plane
  | _ => .operand

/-- The parts that a rule leaves. -/
def Grammar.Rule.parts (r : Rule) : List Part := r.symbols.flatMap Symbol.parts

/-- The rules of a construct have its parts. -/
theorem parts_mem_arities {n : Nonterminal} {r : Rule} {c : Construct} (member : r ∈ n.rules)
    (named : r.construct? = some c) :
    r.parts ∈ c.arities ∧ Symbol.parts (.nonterminal n) = [c.part] := by
  have table : ∀ r ∈ n.rules, r.construct?.all (fun c =>
      decide (r.parts ∈ c.arities ∧ Symbol.parts (.nonterminal n) = [c.part])) = true := by
    cases n <;> decide +kernel
  have row := table r member
  rw [named] at row
  exact of_decide_eq_true row

/-- All other rules pass on what they have, where any operand will do as one of some kind. -/
theorem parts_of_none {n : Nonterminal} {r : Rule} (member : r ∈ n.rules)
    (inlined : r.construct? = none) :
    r.parts = Symbol.parts (.nonterminal n) ∨
      r.parts.length = 1 ∧ Symbol.parts (.nonterminal n) = [.operand] := by
  have table : ∀ r ∈ n.rules, r.construct? = none → r.parts = Symbol.parts (.nonterminal n) ∨
      r.parts.length = 1 ∧ Symbol.parts (.nonterminal n) = [.operand] := by
    cases n <;> decide +kernel
  exact table r member inlined

/-- A computation that a construct makes of its parts. -/
def Computes (m? : Option (Computation Value)) (part : Part) : Prop :=
  ∃ m, m? = some m ∧ Sound m.result ∧ ∀ v, m.result = .ok v → part.Admits v

theorem computes_operand {m : Computation Value} (sound : Sound m.result) :
    Computes (some m) .operand :=
  ⟨m, rfl, sound, fun _ _ => trivial⟩

theorem computes_pure {v : Value} {part : Part} (admits : part.Admits v) :
    Computes (some (pure v)) part := by
  refine ⟨_, rfl, sound_ok v, ?_⟩
  intro w same
  cases same
  exact admits

theorem length_mapM {α : Type} {pick : Value → Option α} {operands : List Value}
    {found : List α} (picked : operands.mapM pick = some found) :
    found.length = operands.length := by
  induction operands generalizing found with
  | nil =>
    cases picked
    rfl
  | cons v vs ih =>
    simp only [List.mapM_cons, Option.bind_eq_bind, Option.bind_eq_some_iff] at picked
    obtain ⟨a, _, rest, later, same⟩ := picked
    cases same
    rw [List.length_cons, List.length_cons, ih later]

/-- A function either finds operands of the kind that it needs or says that it does not. -/
theorem computes_withOperands {α : Type} {name : String} (known : name ∈ functionNames)
    {pick : Value → Option α} {operands : List Value} {next? : List α → Option (Computation Value)}
    (complete : ∀ found : List α, found.length = operands.length →
      ∃ m, next? found = some m ∧ Sound m.result) :
    Computes (withOperands (operandsAs name pick operands) next?) .operand := by
  unfold operandsAs
  cases picked : operands.mapM pick with
  | none => exact computes_operand (sound_error.mpr (.noMethod known _))
  | some found =>
    obtain ⟨m, computed, sound⟩ := complete found (length_mapM picked)
    exact ⟨m, computed, sound, fun _ _ => trivial⟩

theorem sound_literal (l : Number.Literal) : Sound l.value.result := by
  have digits (w : List Char) : Sound (Number.readDigits w) := by
    unfold Number.readDigits
    split
    · exact sound_ok _
    · exact sound_error.mpr (.digits _)
  unfold Number.Literal.value
  split
  · simp [digits]
  · exact sound_ok _
  · refine Noted.sound_bind.mpr ⟨digits _, fun denominator _ => ?_⟩
    split <;> simp [digits]

theorem exists_vectorFunction {name : String} {operands : List Vector}
    (listed : name ∈ Terminal.vectorFunction.spellings ∧ operands.length = 1 ∨
      name ∈ Terminal.pairFunction.spellings ∧ operands.length = 2) :
    ∃ m, vectorFunction? name operands = some m ∧ Sound m.result := by
  rcases listed with ⟨known, size⟩ | ⟨known, size⟩
  · obtain ⟨v, rfl⟩ := List.length_eq_one_iff.mp size
    simp only [Terminal.spellings, Terminal.pattern, List.mem_cons, List.not_mem_nil,
      or_false] at known
    rcases known with rfl | rfl
    · exact ⟨_, rfl, by simp⟩
    · exact ⟨_, rfl, by simp⟩
  · obtain ⟨u, v, rfl⟩ := List.length_eq_two.mp size
    simp only [Terminal.spellings, Terminal.pattern, List.mem_cons, List.not_mem_nil,
      or_false] at known
    rcases known with rfl | rfl | rfl | rfl
    · exact ⟨_, rfl, by simp⟩
    · exact ⟨_, rfl, by simp⟩
    · exact ⟨_, rfl, by simp⟩
    · exact ⟨_, rfl, by simp⟩

theorem exists_planeFunction {name : String} (known : name ∈ Terminal.planeFunction.spellings)
    (p : AnyPlane) : ∃ m, planeFunction? name p = some m ∧ Sound m.result := by
  have toPlane : Sound p.toPlane := by
    cases p <;> simp [AnyPlane.toPlane]
  have toSpan : Sound p.toSpan.result := by
    cases p <;> simp [AnyPlane.toSpan]
  simp only [Terminal.spellings, Terminal.pattern, List.mem_cons, List.not_mem_nil,
    or_false] at known
  rcases known with rfl | rfl | rfl
  · exact ⟨_, rfl, by simp [toSpan]⟩
  · exact ⟨_, rfl, by simp [toPlane, AnyPlane.intercepts]⟩
  · exact ⟨_, rfl, by simp [toPlane]⟩

theorem known_of_spelled {t : Terminal} (head : t ∈ heads) {name : String}
    (listed : name ∈ t.spellings) : name ∈ functionNames := by
  have table : ∀ t ∈ heads, ∀ name ∈ t.spellings, name ∈ functionNames := by decide
  exact table t head name listed

theorem operation_of_spelled {name : String} (listed : name ∈ Terminal.generic.spellings) :
    (Operation.ofLabel? name).isSome = true := by
  have table : ∀ name ∈ Terminal.generic.spellings,
      (Operation.ofLabel? name).isSome = true := by decide
  exact table name listed

/-- Every construct computes something of the parts it is built from. -/
theorem computes {c : Construct} {parts : List Part} (arity : parts ∈ c.arities)
    {values : List Value} (fit : List.Forall₂ Part.Admits parts values) :
    Computes (c.computation? values) c.part := by
  cases c with
  | number =>
    obtain rfl := List.mem_singleton.mp arity
    obtain _ | ⟨⟨s, literal, rfl, reads⟩, ⟨⟩⟩ := fit
    refine ⟨_, congrArg (Option.map _) reads, by simp [sound_literal], ?_⟩
    intro v returns
    obtain ⟨n, _, same⟩ := Noted.result_bind.mp returns
    cases same
    exact ⟨n, rfl⟩
  | vector =>
    obtain rfl := List.mem_singleton.mp arity
    obtain _ | ⟨⟨x, rfl⟩, _ | ⟨⟨y, rfl⟩, _ | ⟨⟨z, rfl⟩, ⟨⟩⟩⟩⟩ := fit
    exact computes_pure ⟨_, rfl, rfl⟩
  | line =>
    obtain rfl := List.mem_singleton.mp arity
    obtain _ | ⟨first, _ | ⟨second, ⟨⟩⟩⟩ := fit
    obtain ⟨base, rfl⟩ := first.exists_vector
    obtain ⟨direction, rfl⟩ := second.exists_vector
    exact computes_pure ⟨_, rfl, rfl⟩
  | span =>
    obtain rfl := List.mem_singleton.mp arity
    obtain _ | ⟨first, _ | ⟨second, _ | ⟨third, ⟨⟩⟩⟩⟩ := fit
    obtain ⟨base, rfl⟩ := first.exists_vector
    obtain ⟨u, rfl⟩ := second.exists_vector
    obtain ⟨v, rfl⟩ := third.exists_vector
    exact computes_pure ⟨_, rfl, rfl⟩
  | plane =>
    obtain rfl := List.mem_singleton.mp arity
    obtain _ | ⟨⟨a, rfl⟩, _ | ⟨⟨b, rfl⟩, _ | ⟨⟨c, rfl⟩, _ | ⟨⟨d, rfl⟩, ⟨⟩⟩⟩⟩⟩ := fit
    exact computes_pure ⟨_, rfl, rfl⟩
  | vectorFunction =>
    simp only [Construct.arities, List.mem_cons, List.not_mem_nil, or_false] at arity
    rcases arity with rfl | rfl
    · obtain _ | ⟨⟨name, rfl, listed⟩, _ | ⟨_, ⟨⟩⟩⟩ := fit
      refine computes_withOperands (known_of_spelled (by decide) listed) ?_
      exact fun found size => exists_vectorFunction (.inl ⟨listed, size⟩)
    · obtain _ | ⟨⟨name, rfl, listed⟩, _ | ⟨_, _ | ⟨_, ⟨⟩⟩⟩⟩ := fit
      refine computes_withOperands (known_of_spelled (by decide) listed) ?_
      exact fun found size => exists_vectorFunction (.inr ⟨listed, size⟩)
  | pointOnLine =>
    obtain rfl := List.mem_singleton.mp arity
    obtain _ | ⟨_, _ | ⟨⟨t, rfl⟩, ⟨⟩⟩⟩ := fit
    refine computes_withOperands (by decide) fun found size => ?_
    obtain ⟨l, rfl⟩ := List.length_eq_one_iff.mp size
    exact ⟨_, rfl, by simp⟩
  | planeFunction =>
    obtain rfl := List.mem_singleton.mp arity
    obtain _ | ⟨⟨name, rfl, listed⟩, _ | ⟨_, ⟨⟩⟩⟩ := fit
    refine computes_withOperands (known_of_spelled (by decide) listed) fun found size => ?_
    obtain ⟨p, rfl⟩ := List.length_eq_one_iff.mp size
    exact exists_planeFunction listed p
  | pointOnPlane =>
    obtain rfl := List.mem_singleton.mp arity
    obtain _ | ⟨_, _ | ⟨⟨s, rfl⟩, _ | ⟨⟨t, rfl⟩, ⟨⟩⟩⟩⟩ := fit
    refine computes_withOperands (by decide) fun found size => ?_
    obtain ⟨p, rfl⟩ := List.length_eq_one_iff.mp size
    exact ⟨_, rfl, by simp⟩
  | lineThroughPoints =>
    obtain rfl := List.mem_singleton.mp arity
    obtain _ | ⟨_, _ | ⟨_, ⟨⟩⟩⟩ := fit
    refine computes_withOperands (by decide) fun found size => ?_
    obtain ⟨p, q, rfl⟩ := List.length_eq_two.mp size
    exact ⟨_, rfl, by simp⟩
  | planeThroughPoints =>
    simp only [Construct.arities, List.mem_cons, List.not_mem_nil, or_false] at arity
    rcases arity with rfl | rfl
    · obtain _ | ⟨_, _ | ⟨_, ⟨⟩⟩⟩ := fit
      refine computes_withOperands (by decide) fun found size => ?_
      obtain ⟨normal, point, rfl⟩ := List.length_eq_two.mp size
      exact ⟨_, rfl, by simp⟩
    · obtain _ | ⟨_, _ | ⟨_, _ | ⟨_, ⟨⟩⟩⟩⟩ := fit
      refine computes_withOperands (by decide) fun found size => ?_
      obtain ⟨a, b, c, rfl⟩ := List.length_eq_three.mp size
      exact ⟨_, rfl, by simp⟩
  | generic =>
    obtain rfl := List.mem_singleton.mp arity
    obtain _ | ⟨⟨name, rfl, listed⟩, _ | ⟨_, _ | ⟨_, ⟨⟩⟩⟩⟩ := fit
    refine computes_withOperands (known_of_spelled (by decide) listed) fun found size => ?_
    obtain ⟨a, b, rfl⟩ := List.length_eq_two.mp size
    exact ⟨_, rfl, sound_operate (operation_of_spelled listed) a b⟩

/-- An error that is told to users as such. -/
inductive EvaluationError.Foreseen : EvaluationError → Prop where
  | arithmetic (cause : ArithmeticFault) : Foreseen (.arithmetic cause)
  | digits (construct : Construct) (cause : DigitFault) :
    Foreseen (.refused construct (.digits cause))
  | noMethod {function : String} (known : function ∈ functionNames) (kinds : List String) :
    Foreseen (.noMethod function kinds)

theorem EvaluationError.foreseen_ofFault (c : Construct) {fault : Fault}
    (foreseen : fault.Foreseen) : (EvaluationError.ofFault c fault).Foreseen := by
  cases foreseen with
  | arithmetic cause => exact .arithmetic cause
  | digits cause => exact .digits c cause
  | noMethod known kinds => exact .noMethod known kinds

/-- An evaluation that has a result with a property or fails in a foreseen way. -/
def Gives {α : Type} (m : Noted EvaluationError α) (P : α → Prop) : Prop :=
  match m.result with
  | .ok a => P a
  | .error e => e.Foreseen

namespace Gives

variable {α β : Type} {m : Noted EvaluationError α} {f : α → Noted EvaluationError β}
  {P : α → Prop} {Q : β → Prop}

theorem bind (first : Gives m P) (next : ∀ a, P a → Gives (f a) Q) : Gives (m >>= f) Q := by
  unfold Gives at first
  cases done : m.result with
  | ok a =>
    rw [done] at first
    unfold Gives
    rw [Noted.bind_ok f done]
    exact next a first
  | error e =>
    rw [done] at first
    unfold Gives
    rw [Noted.bind_error f done]
    exact first

theorem imp {R : α → Prop} (given : Gives m P) (weaker : ∀ a, P a → R a) : Gives m R := by
  unfold Gives at given ⊢
  split
  · rename_i done
    rw [done] at given
    exact weaker _ given
  · rename_i done
    rw [done] at given
    exact given

theorem of_bind (given : Gives (m >>= f) Q) : Gives m fun _ => True := by
  unfold Gives at given ⊢
  cases done : m.result with
  | ok a => trivial
  | error e =>
    rw [Noted.bind_error f done] at given
    exact given

end Gives

theorem Gives.mapError {P : Value → Prop} (c : Construct) {m : Computation Value}
    (sound : Sound m.result) (proper : ∀ v, m.result = .ok v → P v) :
    Gives (m.mapError (EvaluationError.ofFault c)) P := by
  unfold Gives Noted.mapError
  cases done : m.result with
  | ok v => exact proper v done
  | error fault => exact EvaluationError.foreseen_ofFault c (sound fault done)

theorem Gives.construct {c : Construct} {parts : List Part} (arity : parts ∈ c.arities)
    {children : List Grammar.Tree}
    (given : Gives (Grammar.Tree.values children) (List.Forall₂ Part.Admits parts)) :
    Gives (Grammar.Tree.node c children).value c.part.Admits := by
  rw [Grammar.Tree.value]
  refine given.bind fun values fit => ?_
  obtain ⟨m, computed, sound, admitted⟩ := computes arity fit
  rw [computed]
  exact Gives.mapError c sound admitted

theorem Grammar.Tree.values_append (first second : List Grammar.Tree) :
    Grammar.Tree.values (first ++ second) = (do
      let values ← Grammar.Tree.values first
      return values ++ (← Grammar.Tree.values second)) := by
  induction first with
  | nil => simp [Grammar.Tree.values]
  | cons tree rest ih => simp [Grammar.Tree.values, ih]

theorem Gives.append {first second : List Grammar.Tree} {parts more : List Part}
    (front : Gives (Grammar.Tree.values first) (List.Forall₂ Part.Admits parts))
    (back : Gives (Grammar.Tree.values second) (List.Forall₂ Part.Admits more)) :
    Gives (Grammar.Tree.values (first ++ second)) (List.Forall₂ Part.Admits (parts ++ more)) := by
  rw [Grammar.Tree.values_append]
  refine front.bind fun values fit => back.bind fun others behind => ?_
  exact List.rel_append fit behind

theorem Gives.single {tree : Grammar.Tree} {part : Part} (given : Gives tree.value part.Admits) :
    Gives (Grammar.Tree.values [tree]) (List.Forall₂ Part.Admits [part]) := by
  rw [Grammar.Tree.values]
  refine given.bind fun v admits => ?_
  exact .cons admits .nil

/-- What is kept of a token evaluates to its text. -/
theorem Gives.token {t : Terminal} {text : List Char} (fits : Token.Fits ⟨t, text⟩) :
    Gives (Grammar.Tree.values (if t.isKept then [.token ⟨t, text⟩] else []))
      (List.Forall₂ Part.Admits (Symbol.parts (.terminal t))) := by
  by_cases numeral : t = .number
  · subst numeral
    obtain ⟨literal, scanned⟩ := fits.numeral
    exact .cons ⟨_, literal, rfl, Number.Literal.ofText?_eq_some.mpr scanned⟩ .nil
  · have parts : Symbol.parts (.terminal t) = if t.isKept then [.name t] else [] := by
      cases t <;> first | rfl | exact absurd rfl numeral
    rw [parts]
    by_cases kept : t.isKept = true
    · have shape : t.pattern = .spellings t.spellings := by
        cases t <;> first | rfl | exact absurd rfl numeral | cases kept
      rw [if_pos kept, if_pos kept]
      exact .cons ⟨_, rfl, fits.spelled shape⟩ .nil
    · rw [if_neg kept, if_neg kept]
      exact .nil

/-- The trees of a derivation evaluate to the parts that its row leaves. -/
theorem Grammar.Derivation.gives {row : List Symbol} (d : Derivation row)
    (fits : ∀ t ∈ d.tokens, t.Fits) :
    Gives (Grammar.Tree.values d.trees) (List.Forall₂ Part.Admits (row.flatMap Symbol.parts)) := by
  induction d with
  | nil => exact .nil
  | token t text later ih =>
    refine Gives.append ?_ (ih fun u member => fits u (List.mem_cons_of_mem _ member))
    exact Gives.token (fits _ (List.mem_cons_self ..))
  | @rule row n r member parts later parts_ih later_ih =>
    have front := parts_ih fun t listed => fits t (List.mem_append_left _ listed)
    have back := later_ih fun t listed => fits t (List.mem_append_right _ listed)
    refine Gives.append ?_ back
    cases named : r.construct? with
    | some c =>
      obtain ⟨arity, part⟩ := parts_mem_arities member named
      rw [part]
      exact (front.construct arity).single
    | none =>
      rcases parts_of_none member named with same | ⟨one, any⟩
      · rw [← same]
        exact front
      · rw [any]
        refine front.imp fun values fit => ?_
        obtain ⟨v, rfl⟩ := List.length_eq_one_iff.mp (fit.length_eq.symm.trans one)
        exact .cons trivial .nil

theorem result_evaluate {text : String} {tree : Grammar.Tree}
    (found : Grammar.read text = .ok tree) : (evaluate text).result = tree.value.result := by
  unfold evaluate
  rw [found]
  rfl

/-- The tree that a text is read as has a value or fails in a foreseen way. -/
theorem gives_value {text : String} {tree : Grammar.Tree}
    (found : Grammar.read text = .ok tree) : Gives tree.value fun _ => True := by
  unfold Grammar.read at found
  rcases readTrimmed_cases (Text.trim text.toList) with
    ⟨d, other, spells, single, same⟩ | ⟨_, e, failed⟩
  · cases found.symm.trans same
    have given := d.gives spells.fits
    rw [single, Grammar.Tree.values] at given
    exact given.of_bind
  · cases found.symm.trans failed

/-- A text that is read has a value, or its evaluation fails in a foreseen way: never because the
parts of a construct do not fit it, a number is outside the domain of a function, or a search finds
nothing. -/
theorem evaluate_foreseen (text : String) :
    match Grammar.read text, (evaluate text).result with
    | .error cause, result => result = .error (.unreadable cause)
    | .ok _, .ok _ => True
    | .ok _, .error e => e.Foreseen := by
  cases found : Grammar.read text with
  | error cause =>
    unfold evaluate
    rw [found]
    rfl
  | ok tree =>
    have given := gives_value found
    unfold Gives at given
    rw [result_evaluate found]
    cases done : tree.value.result with
    | ok v => trivial
    | error e =>
      rw [done] at given
      exact given

end SolidGeometry
