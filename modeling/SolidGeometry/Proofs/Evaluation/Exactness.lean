import SolidGeometry.Proofs.Evaluation.ExactConstructs
import SolidGeometry.Proofs.Geometry.Undefinedness

namespace SolidGeometry
open Grammar

variable {warned : Prop}

/-- Functions of exact vectors have numbers as their results, or warn. -/
theorem keeps_vectorFunction_numbers {name : String} {operands : List Vector}
    {m : Computation Value} (exact : ∀ v ∈ operands, v.ExactUnless warned)
    (computed : vectorFunction? name operands = some m) :
    m.Keeps warned (Value.NumberUnless warned) := by
  by_cases known : warned
  · exact .imp (.any _) fun _ _ _ _ _ => known
  have measured {r : Checked Float} (finite : Ensures r Number.IsFinite) :
      (do return .number (.float (← r)) : Computation Value).Keeps warned
        (Value.NumberUnless warned) :=
    .bind (.lift finite) fun x proper =>
      .pure (Value.numberUnless_number.mpr (Scalar.numberUnless_float proper))
  unfold vectorFunction? at computed
  split at computed
  · obtain ⟨p, value⟩ := (exact _ List.mem_cons_self).exists_value.resolve_right known
    cases computed
    exact measured (Vector.isFinite_length value)
  · obtain ⟨p, value⟩ := (exact _ List.mem_cons_self).exists_value.resolve_right known
    cases computed
    exact (Vector.keeps_normalize value).bind fun w kept => .pure kept
  · simp only [List.forall_mem_cons] at exact
    cases computed
    exact .bind (.lift (exact.1.dot exact.2.1)) fun _ n =>
      .pure (Value.exactUnless_number.mpr n).numberUnless
  · simp only [List.forall_mem_cons] at exact
    cases computed
    exact .bind (.lift (exact.1.cross exact.2.1)) fun _ v =>
      .pure (Value.exactUnless_vector v).numberUnless
  · simp only [List.forall_mem_cons] at exact
    obtain ⟨p, first⟩ := exact.1.exists_value.resolve_right known
    obtain ⟨q, second⟩ := exact.2.1.exists_value.resolve_right known
    cases computed
    exact measured (Vector.isFinite_area first second)
  · simp only [List.forall_mem_cons] at exact
    cases computed
    exact .bind (.lift (exact.1.between exact.2.1)) fun _ v =>
      .pure (Value.exactUnless_vector v).numberUnless
  · cases computed

theorem keeps_vectorCall_numbers {name : String} {operands : List Value}
    (usable : ∀ v ∈ operands, v.Usable warned) {m : Computation Value}
    (computed : Construct.vectorFunction.computation? (.text name :: operands) = some m) :
    m.Keeps warned (Value.NumberUnless warned) :=
  keeps_withOperands (fun v listed _ => (usable v listed).vector)
    (fun _ exact _ => keeps_vectorFunction_numbers exact) computed

/-- What is computed with exact vectors is of the function of its name, or a unit vector, which is
of numbers unless there was a warning. -/
theorem keeps_vectorCall_unit {name : String} {operands : List Value}
    (usable : ∀ v ∈ operands, v.Usable warned) {m : Computation Value}
    (computed : Construct.vectorFunction.computation? (.text name :: operands) = some m) :
    m.Keeps warned fun v => v.ResultOf warned name ∨
      name = "normalize" ∧ v.NumberUnless warned := by
  by_cases unit : name = "normalize"
  · exact (keeps_vectorCall_numbers usable computed).imp fun _ number => .inr ⟨unit, number⟩
  · exact (keeps_vectorCall usable unit computed).imp fun _ => .inl

/-- The outermost function of an expression, if it is a call. -/
def Grammar.Tree.function? : Grammar.Tree → Option String
  | .node .vectorFunction (.token t :: _) => some (String.ofList t.text)
  | .node .planeFunction (.token t :: _) => some (String.ofList t.text)
  | .node .generic (.token t :: _) => some (String.ofList t.text)
  | .node .pointOnLine _ => some "lwith"
  | .node .pointOnPlane _ => some "pwith"
  | .node .lineThroughPoints _ => some "line"
  | .node .planeThroughPoints _ => some "plane"
  | _ => none

/-- Other functions than those called by a name are known from how they are written. -/
theorem Grammar.Tree.function?_of_not_call {c : Construct} {children : List Grammar.Tree}
    (plain : c ∉ callConstructs) : ∀ name ∈ (Grammar.Tree.node c children).function?,
      name ∈ ["lwith", "pwith", "line", "plane"] := by
  cases c with
  | vectorFunction => exact absurd (by decide) plain
  | planeFunction => exact absurd (by decide) plain
  | generic => exact absurd (by decide) plain
  | pointOnLine => rintro _ ⟨⟩; decide
  | pointOnPlane => rintro _ ⟨⟩; decide
  | lineThroughPoints => rintro _ ⟨⟩; decide
  | planeThroughPoints => rintro _ ⟨⟩; decide
  | _ => rintro _ ⟨⟩

/-- A value of a tree: exact, or measured by the function that the tree calls. -/
def Grammar.Tree.ResultIn (warned : Prop) (tree : Grammar.Tree) (v : Value) : Prop :=
  v.ExactUnless warned ∨ ∃ name ∈ tree.function?, v.ResultOf warned name

theorem Grammar.Tree.ResultIn.usable {tree : Grammar.Tree} {v : Value}
    (result : tree.ResultIn warned v) : v.Usable warned := by
  rcases result with exact | ⟨name, -, result⟩
  · exact exact.usable
  · exact result.usable

/-- A float that is a number. -/
def Scalar.isMeasured (n : Scalar) : Bool := n.rational?.isNone && !n.isNaN

/-- The tree is a call for a unit vector, and what it results in carries floats. -/
def Grammar.Tree.Normalizes (tree : Grammar.Tree) : Prop :=
  tree.function? = some "normalize" ∧
    ∃ v, tree.value.result = .ok v ∧ ∃ n ∈ v.numbers, n.isMeasured = true

theorem any_toOption {ε α : Type} {r : Except ε α} {p : α → Bool} :
    r.toOption.any p = true ↔ ∃ a, r = .ok a ∧ p a = true := by
  cases r <;> simp [Except.toOption]

instance (tree : Grammar.Tree) : Decidable tree.Normalizes :=
  decidable_of_iff (tree.function? = some "normalize" ∧
      tree.value.result.toOption.any (·.numbers.any Scalar.isMeasured) = true)
    (by rw [any_toOption, Grammar.Tree.Normalizes]; simp only [List.any_eq_true])

theorem Scalar.NumberUnless.exactUnless {n : Scalar} (number : n.NumberUnless warned)
    (unmeasured : n.isMeasured ≠ true) : n.ExactUnless warned := by
  cases rational : n.rational? with
  | some q => exact .inl ⟨q, rational⟩
  | none =>
    have none : n.isNaN = true := by simpa [isMeasured, rational] using unmeasured
    exact .inr ⟨none, number none⟩

/-- What is known of a tree that is a part of an exact expression. -/
def Grammar.Tree.Kept (warned : Prop) (tree : Grammar.Tree) : Part → Prop
  | .numeral => ∃ text, tree = .token ⟨.number, text⟩ ∧ '.' ∉ text
  | .name t => ∃ text, tree = .token ⟨t, text⟩
  | .number | .element _ => tree.value.Keeps warned (Value.ExactUnless warned)
  | .operand => tree.value.Keeps warned (tree.ResultIn warned)

section

variable {trees : List Grammar.Tree} {tree : Grammar.Tree} {P : Value → Prop}

theorem keeps_values (each : ∀ tree ∈ trees, tree.value.Keeps warned P) :
    (Grammar.Tree.values trees).Keeps warned fun vs => ∀ v ∈ vs, P v := by
  induction trees with
  | nil => exact .pure (by simp)
  | cons tree rest ih =>
    obtain ⟨first, others⟩ := List.forall_mem_cons.mp each
    refine first.bind fun v holds => (ih others).bind fun vs all => .pure ?_
    exact List.forall_mem_cons.mpr ⟨holds, all⟩

theorem keeps_values_nil : (Grammar.Tree.values []).Keeps warned (· = []) := .pure rfl

theorem keeps_values_cons {Q : List Value → Prop} (first : tree.value.Keeps warned P)
    (rest : (Grammar.Tree.values trees).Keeps warned Q) :
    (Grammar.Tree.values (tree :: trees)).Keeps warned fun vs =>
      ∃ v others, vs = v :: others ∧ P v ∧ Q others :=
  first.bind fun v holds => rest.bind fun others all => .pure ⟨v, others, rfl, holds, all⟩

theorem keeps_node {c : Construct} {Q : List Value → Prop}
    (parts : (Grammar.Tree.values trees).Keeps warned Q)
    (computes : ∀ vs, Q vs → ∀ m, c.computation? vs = some m → m.Keeps warned P) :
    (Grammar.Tree.node c trees).value.Keeps warned P := by
  rw [Grammar.Tree.value]
  refine parts.bind fun vs holds => ?_
  split
  · rename_i m computed
    exact (computes vs holds m computed).mapError _
  · exact .fail _

end

namespace Grammar.Tree.Kept

variable {children : List Grammar.Tree} {parts : List Part}

theorem exists_part (fit : List.Forall₂ (Grammar.Tree.Kept warned) children parts)
    {tree : Grammar.Tree} (member : tree ∈ children) : ∃ part ∈ parts, tree.Kept warned part := by
  induction fit with
  | nil => cases member
  | cons first later ih =>
    rcases List.mem_cons.mp member with rfl | behind
    · exact ⟨_, List.mem_cons_self, first⟩
    · obtain ⟨part, listed, kept⟩ := ih behind
      exact ⟨part, List.mem_cons_of_mem _ listed, kept⟩

theorem usable {tree : Grammar.Tree} (kept : tree.Kept warned .operand) :
    tree.value.Keeps warned (Value.Usable warned) :=
  Noted.Keeps.imp kept fun _ => ResultIn.usable

/-- What is a part of any kind is an operand. -/
theorem operand {tree : Grammar.Tree} {part : Part} (kept : tree.Kept warned part) :
    tree.Kept warned .operand := by
  have shown (u : Token) : (Grammar.Tree.token u).Kept warned .operand :=
    .pure (.inl (Value.exactUnless_of_numbers rfl))
  cases part with
  | numeral =>
    obtain ⟨text, rfl, -⟩ := kept
    exact shown _
  | name t =>
    obtain ⟨text, rfl⟩ := kept
    exact shown _
  | number => exact Noted.Keeps.imp kept fun _ => .inl
  | element kind => exact Noted.Keeps.imp kept fun _ => .inl
  | operand => exact kept

theorem number {text : List Char} (whole : '.' ∉ text) :
    (Grammar.Tree.node .number [.token ⟨.number, text⟩]).Kept warned .number := by
  refine keeps_node (Q := (· = [.text (String.ofList text)])) (.pure rfl) ?_
  rintro _ rfl m computed
  obtain ⟨l, reads, rfl⟩ := Option.map_eq_some_iff.mp computed
  have exact : ∀ places, l.tail ≠ .places places :=
    fun places decimal => whole (Number.mem_of_places reads decimal)
  exact (Number.Literal.keeps_value exact).bind fun n kept =>
    .pure (Value.exactUnless_number.mpr kept)

theorem literal {c : Construct} {kind : Kind} (element : c.part = .element kind)
    (arity : parts ∈ c.arities)
    (fit : List.Forall₂ (Grammar.Tree.Kept warned) children parts) :
    (Grammar.Tree.node c children).value.Keeps warned (Value.ExactUnless warned) := by
  have exact : ∀ parts ∈ c.arities, ∀ part ∈ parts, part = .number ∨ part = .element .vector := by
    cases c <;> first | decide | cases element
  refine keeps_node (keeps_values fun tree member => ?_) fun vs all m => keeps_literal element all
  obtain ⟨part, listed, kept⟩ := exists_part fit member
  rcases exact parts arity part listed with rfl | rfl
  · exact kept
  · exact kept

theorem operands {k : Nat}
    (fit : List.Forall₂ (Grammar.Tree.Kept warned) children (List.replicate k .operand)) :
    (Grammar.Tree.values children).Keeps warned fun vs => ∀ v ∈ vs, v.Usable warned := by
  refine keeps_values fun tree member => ?_
  obtain ⟨part, listed, kept⟩ := exists_part fit member
  cases List.eq_of_mem_replicate listed
  exact kept.usable

/-- A call that shows its name has a value of the function of that name. -/
theorem named {c : Construct} {t : Terminal} {k : Nat}
    (fit : List.Forall₂ (Grammar.Tree.Kept warned) children (.name t :: List.replicate k .operand))
    (shown : ∀ u rest, (Grammar.Tree.node c (.token u :: rest)).function? =
      some (String.ofList u.text))
    (keeps : ∀ name vs, (∀ v ∈ vs, Value.Usable warned v) →
      ∀ m, c.computation? (.text name :: vs) = some m →
        m.Keeps warned fun v => Value.ResultOf warned name v ∨
          name = "normalize" ∧ v.NumberUnless warned)
    (plain : ¬(Grammar.Tree.node c children).Normalizes) :
    (Grammar.Tree.node c children).Kept warned .operand := by
  obtain _ | ⟨⟨text, rfl⟩, others⟩ := fit
  have name : (Grammar.Tree.token ⟨t, text⟩).value.Keeps warned (· = .text (String.ofList text)) :=
    .pure rfl
  have call := keeps_node (keeps_values_cons name (operands others))
    fun _ ⟨_, vs, same, first, usable⟩ m computed => by
      subst same first
      exact keeps _ vs usable m computed
  intro covered v returns
  rcases call covered v returns with result | ⟨unit, number⟩
  · exact .inr ⟨_, shown _ _, result⟩
  · -- A unit vector is only kept where it has no floats, so where it is none.
    have unmeasured : ∀ n ∈ v.numbers, n.isMeasured ≠ true := fun n member measured =>
      plain ⟨by rw [shown, unit], v, returns, n, member, measured⟩
    exact .inl fun n member => (number n member).exactUnless (unmeasured n member)

theorem node {c : Construct} (arity : parts ∈ c.arities)
    (fit : List.Forall₂ (Grammar.Tree.Kept warned) children parts)
    (plain : ¬(Grammar.Tree.node c children).Normalizes) :
    (Grammar.Tree.node c children).Kept warned c.part := by
  cases c with
  | number =>
    obtain rfl := List.mem_singleton.mp arity
    obtain _ | ⟨⟨text, rfl, whole⟩, ⟨⟩⟩ := fit
    exact number whole
  | vector => exact literal rfl arity fit
  | line => exact literal rfl arity fit
  | span => exact literal rfl arity fit
  | plane => exact literal rfl arity fit
  | vectorFunction =>
    simp only [Construct.arities, List.mem_cons, List.not_mem_nil, or_false] at arity
    rcases arity with rfl | rfl
    · exact named (k := 1) fit (fun _ _ => rfl)
        (fun _ _ usable _ => keeps_vectorCall_unit usable) plain
    · exact named (k := 2) fit (fun _ _ => rfl)
        (fun _ _ usable _ => keeps_vectorCall_unit usable) plain
  | planeFunction =>
    obtain rfl := List.mem_singleton.mp arity
    exact named (k := 1) fit (fun _ _ => rfl) (fun _ _ usable _ computed =>
      (keeps_planeCall usable computed).imp fun _ exact => .inl (.inl exact)) plain
  | generic =>
    obtain rfl := List.mem_singleton.mp arity
    exact named (k := 2) fit (fun _ _ => rfl) (fun _ _ usable _ computed =>
      (keeps_genericCall usable computed).imp fun _ => .inl) plain
  | pointOnLine =>
    obtain rfl := List.mem_singleton.mp arity
    obtain _ | ⟨operand, _ | ⟨t, ⟨⟩⟩⟩ := fit
    refine keeps_node (keeps_values_cons operand.usable (keeps_values_cons t keeps_values_nil)) ?_
    rintro _ ⟨_, _, rfl, usable, _, _, rfl, t, rfl⟩ m computed
    exact (keeps_pointOnLine usable t computed).imp fun _ => .inl
  | pointOnPlane =>
    obtain rfl := List.mem_singleton.mp arity
    obtain _ | ⟨operand, _ | ⟨s, _ | ⟨t, ⟨⟩⟩⟩⟩ := fit
    refine keeps_node (keeps_values_cons operand.usable (keeps_values_cons s
      (keeps_values_cons t keeps_values_nil))) ?_
    rintro _ ⟨_, _, rfl, usable, _, _, rfl, s, _, _, rfl, t, rfl⟩ m computed
    exact (keeps_pointOnPlane usable s t computed).imp fun _ => .inl
  | lineThroughPoints =>
    obtain rfl := List.mem_singleton.mp arity
    exact keeps_node (operands (k := 2) fit) fun vs usable m computed =>
      (keeps_lineThroughPoints usable computed).imp fun _ => .inl
  | planeThroughPoints =>
    simp only [Construct.arities, List.mem_cons, List.not_mem_nil, or_false] at arity
    rcases arity with rfl | rfl
    · exact keeps_node (operands (k := 2) fit) fun vs usable m computed =>
        (keeps_planeThroughPoints usable computed).imp fun _ => .inl
    · exact keeps_node (operands (k := 3) fit) fun vs usable m computed =>
        (keeps_planeThroughPoints usable computed).imp fun _ => .inl

end Grammar.Tree.Kept

/-- A token of an exact expression: a number without decimal places, or the name of any function but
that of unit vectors. -/
def Grammar.Token.IsExact (t : Grammar.Token) : Prop :=
  if t.terminal = .number then '.' ∉ t.text else t.text ≠ "normalize".toList

instance (t : Grammar.Token) : Decidable t.IsExact :=
  inferInstanceAs (Decidable (if t.terminal = .number then '.' ∉ t.text
    else t.text ≠ "normalize".toList))

theorem Grammar.Tree.kept_token {t : Terminal} {text : List Char}
    (whole : t = .number → '.' ∉ text) :
    List.Forall₂ (Grammar.Tree.Kept warned) (if t.isKept then [.token ⟨t, text⟩] else [])
      (Symbol.parts (.terminal t)) := by
  by_cases numeral : t = .number
  · subst numeral
    exact .cons ⟨text, rfl, whole rfl⟩ .nil
  · have parts : Symbol.parts (.terminal t) = if t.isKept then [.name t] else [] := by
      cases t <;> first | rfl | exact absurd rfl numeral
    rw [parts]
    split
    · exact .cons ⟨text, rfl⟩ .nil
    · exact .nil

/-- The trees of a derivation are parts of an exact expression if its numbers have no decimal places
and none of its calls normalizes. -/
theorem Grammar.Derivation.kept {row : List Symbol} (d : Derivation row)
    (whole : ∀ t ∈ d.tokens, t.terminal = .number → '.' ∉ t.text)
    (plain : ∀ tree ∈ Tree.subtreesAll d.trees, ¬tree.Normalizes) :
    List.Forall₂ (Grammar.Tree.Kept warned) d.trees (row.flatMap Symbol.parts) := by
  induction d with
  | nil => exact .nil
  | token t text later ih =>
    rw [trees, Tree.subtreesAll_append, List.forall_mem_append] at plain
    refine List.rel_append (Grammar.Tree.kept_token (whole _ List.mem_cons_self)) (ih ?_ plain.2)
    exact fun u member => whole u (List.mem_cons_of_mem _ member)
  | @rule row n r member parts later parts_ih later_ih =>
    rw [trees, Tree.subtreesAll_append, List.forall_mem_append] at plain
    rw [tokens, List.forall_mem_append] at whole
    refine List.rel_append ?_ (later_ih whole.2 plain.2)
    have inner := plain.1
    cases named : r.construct? with
    | some c =>
      obtain ⟨arity, part⟩ := parts_mem_arities member named
      rw [named] at inner
      simp only [Tree.subtreesAll, Tree.subtrees, List.append_nil, List.forall_mem_cons] at inner
      rw [part]
      exact .cons (Grammar.Tree.Kept.node arity (parts_ih whole.1 inner.2) inner.1) .nil
    | none =>
      rw [named] at inner
      have front := parts_ih whole.1 inner
      -- The rule only passes on what it has, perhaps one part of some kind as an operand.
      rcases parts_of_none member named with same | ⟨one, any⟩
      · rw [← same]
        exact front
      · obtain ⟨part, single⟩ := List.length_eq_one_iff.mp one
        change List.Forall₂ _ parts.trees r.parts at front
        generalize parts.trees = trees at front ⊢
        rw [single] at front
        obtain _ | ⟨kept, ⟨⟩⟩ := front
        rw [any]
        exact .cons (Grammar.Tree.Kept.operand kept) .nil

/-- Where no token names the function of unit vectors, no call normalizes. -/
theorem Grammar.Derivation.not_normalizes {row : List Symbol} (d : Derivation row)
    (exact : ∀ t ∈ d.tokens, t.terminal.isKept = true → t.IsExact) :
    ∀ tree ∈ Tree.subtreesAll d.trees, ¬tree.Normalizes := by
  rintro tree inside ⟨named, -⟩
  have names : ∀ t ∈ callNames, t.isKept = true ∧ t ≠ .number := by decide
  have unnamed {c : Construct} {children : List Tree} (call : c ∈ callConstructs)
      (inside : .node c children ∈ Tree.subtreesAll d.trees) :
      (Tree.node c children).function? ≠ some "normalize" := by
    obtain ⟨u, operands, rfl, shown, name, -⟩ := d.exists_call inside call
    obtain ⟨kept, numeral⟩ := names u.terminal name
    have unlike := exact u shown kept
    rw [Token.IsExact, if_neg numeral] at unlike
    have called : (Tree.node c (.token u :: operands)).function? = some (String.ofList u.text) := by
      simp only [callConstructs, List.mem_cons, List.not_mem_nil, or_false] at call
      rcases call with rfl | rfl | rfl <;> rfl
    intro same
    rw [called] at same
    exact unlike (by rw [← Option.some.inj same, String.toList_ofList])
  cases tree with
  | token t => cases named
  | node c children =>
    by_cases call : c ∈ callConstructs
    · exact unnamed call inside named
    · exact absurd (Tree.function?_of_not_call call _ named) (by decide)

theorem warnings_evaluate {text : String} {tree : Grammar.Tree}
    (found : Grammar.read text = .ok tree) : (evaluate text).warnings = tree.value.warnings := by
  unfold evaluate
  rw [found]
  rfl

/-- Exact input stays exact. A text without decimal places and without unit vectors, whose outermost
function does not measure, evaluates to numbers that are integers, fractions or none at all, and
where there is none the evaluation has warned of a division by zero. -/
theorem evaluate_exact {text : String} {tree : Grammar.Tree} {v : Value}
    (found : Grammar.read text = .ok tree) (exact : ∀ t ∈ tree.tokens, t.IsExact)
    (unmeasured : ∀ name ∈ tree.function?, name ∉ measuringNames)
    (returns : (evaluate text).result = .ok v) :
    ∀ n ∈ v.numbers, (n.rational?.isSome = true ∨ n.isNaN = true) ∧
      (n.isNaN = true → ∃ w ∈ (evaluate text).warnings, w.code = .division) := by
  obtain ⟨d, -, single, shown⟩ := exists_derivation_of_read found
  -- Whether the whole evaluation warns is fixed before the parts are looked at: a part that warns
  -- then makes it true, and no part has to know what the parts before it did.
  have each : ∀ t ∈ d.tokens, t.terminal.isKept = true → t.IsExact := by
    intro t listed kept
    refine exact t ?_
    rw [shown]
    exact List.mem_filter.mpr ⟨listed, kept⟩
  have root : List.Forall₂ (Grammar.Tree.Kept (evaluate text).Warned) d.trees [.operand] := by
    refine d.kept (fun t listed numeral => ?_) (d.not_normalizes each)
    have whole := each t listed (by rw [numeral]; rfl)
    rwa [Token.IsExact, if_pos numeral] at whole
  rw [single] at root
  obtain _ | ⟨kept, ⟨⟩⟩ := root
  have covered : tree.value.Warned → (evaluate text).Warned := by
    rw [Noted.Warned, Noted.Warned, warnings_evaluate found]
    exact id
  have exact_value : v.ExactUnless (evaluate text).Warned := by
    rcases kept covered v (result_evaluate found ▸ returns) with exact | ⟨name, called, result⟩
    · exact exact
    · exact result.resolve_right fun measured => unmeasured name called measured.1
  intro n member
  rcases exact_value n member with ⟨q, rational⟩ | ⟨none, known⟩
  · exact ⟨.inl (by rw [rational]; rfl), fun none => by
      rw [Scalar.not_isNaN_of_exact rational] at none
      cases none⟩
  · exact ⟨.inr none, fun _ => known⟩

/-- The cross product of a vector with a denominator of zero and a nested call. -/
theorem evaluate_exact_cross :
    let text := "cross (1/0, 2, 3) (between (1, 2, 3) (3/4, 5, -5))"
    ∃ tree v, Grammar.read text = .ok tree ∧ (∀ t ∈ tree.tokens, t.IsExact) ∧
      (∀ name ∈ tree.function?, name ∉ measuringNames) ∧ (evaluate text).result = .ok v ∧
      v.numbers.any Scalar.isNaN = true ∧
      ∀ n ∈ v.numbers, (n.rational?.isSome = true ∨ n.isNaN = true) ∧
        (n.isNaN = true → ∃ w ∈ (evaluate text).warnings, w.code = .division) := by
  intro text
  have checked : (Grammar.read text).toOption.any (fun tree =>
      decide (∀ t ∈ tree.tokens, t.IsExact) &&
        decide (∀ name ∈ tree.function?, name ∉ measuringNames) &&
        tree.value.result.toOption.any (·.numbers.any Scalar.isNaN)) = true := by
    decide +kernel
  obtain ⟨tree, found, holds⟩ := any_toOption.mp checked
  simp only [Bool.and_eq_true, decide_eq_true_eq] at holds
  obtain ⟨⟨exact, unmeasured⟩, undefined⟩ := holds
  obtain ⟨v, done, none⟩ := any_toOption.mp undefined
  have returns : (evaluate text).result = .ok v := (result_evaluate found).trans done
  exact ⟨tree, v, found, exact, unmeasured, returns, none,
    evaluate_exact found exact unmeasured returns⟩

end SolidGeometry
