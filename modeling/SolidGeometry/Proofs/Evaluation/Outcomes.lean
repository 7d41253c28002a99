import SolidGeometry.Proofs.Evaluation.Failures
import SolidGeometry.Proofs.Grammar.Readings

/-! Values without their errors. Whether a construct has a value and which one depends on those of
its parts alone, so a derivation can be followed through its text together with the values that it
leaves. -/
namespace SolidGeometry
open Grammar

def Grammar.Tree.outcome (t : Grammar.Tree) : Option Value := t.value.result.toOption

/-- The value of a construct, if all its parts have values and it has one. -/
def Grammar.Construct.outcome (c : Construct) (parts : List (Option Value)) : Option Value := do
  let values ← parts.mapM id
  let computation ← c.computation? values
  computation.result.toOption

theorem toOption_bind {ε α β : Type} (m : Noted ε α) (f : α → Noted ε β) :
    (m >>= f).result.toOption = m.result.toOption.bind fun a => (f a).result.toOption := by
  cases done : m.result with
  | ok a =>
    rw [Noted.bind_ok f done]
    rfl
  | error e =>
    rw [Noted.bind_error f done]
    rfl

theorem toOption_mapError {ε δ α : Type} (f : ε → δ) (m : Noted ε α) :
    (m.mapError f).result.toOption = m.result.toOption := by
  unfold Noted.mapError
  cases m.result <;> rfl

theorem toOption_values (trees : List Grammar.Tree) :
    (Grammar.Tree.values trees).result.toOption = (trees.map Grammar.Tree.outcome).mapM id := by
  induction trees with
  | nil => rfl
  | cons tree rest ih =>
    rw [Grammar.Tree.values, toOption_bind, List.map_cons, List.mapM_cons, ← ih]
    change _ = tree.value.result.toOption.bind _
    congr 1
    funext v
    exact toOption_bind _ _

/-- The value of a construct comes from the values of its parts. -/
theorem Grammar.Tree.outcome_node (c : Construct) (children : List Grammar.Tree) :
    (Grammar.Tree.node c children).outcome = c.outcome (children.map Grammar.Tree.outcome) := by
  unfold Grammar.Tree.outcome Grammar.Construct.outcome
  rw [Grammar.Tree.value, toOption_bind, toOption_values]
  change Option.bind _ _ = Option.bind _ _
  congr 1
  funext values
  cases c.computation? values with
  | none => rfl
  | some computation => exact toOption_mapError _ _

theorem mapM_refused {α β : Type} {pick : α → Option β} {a : α} {list : List α}
    (member : a ∈ list) (refused : pick a = none) : list.mapM pick = none := by
  induction list with
  | nil => cases member
  | cons b rest ih =>
    rw [List.mapM_cons]
    rcases List.mem_cons.mp member with rfl | later
    · rw [refused]
      rfl
    · rw [ih later]
      cases pick b <;> rfl

private theorem eq_map_some {parts : List (Option Value)} {values : List Value}
    (present : parts.mapM id = some values) : parts = values.map some := by
  induction parts generalizing values with
  | nil =>
    cases present
    rfl
  | cons part rest ih =>
    simp only [List.mapM_cons, Option.bind_eq_bind, Option.bind_eq_some_iff] at present
    obtain ⟨v, here, others, later, same⟩ := present
    cases same
    rw [List.map_cons, ← ih later]
    exact congrArg (· :: rest) here

/-- A construct that has a value has those of all its parts. -/
theorem Grammar.Construct.outcome_cases (c : Construct) (parts : List (Option Value)) :
    c.outcome parts = none ∨ ∃ values, parts = values.map some ∧
      c.outcome parts = (c.computation? values).bind fun m => m.result.toOption := by
  unfold Grammar.Construct.outcome
  cases present : parts.mapM id with
  | none => exact .inl rfl
  | some values => exact .inr ⟨values, eq_map_some present, rfl⟩

theorem Grammar.Construct.outcome_none (c : Construct) {parts : List (Option Value)}
    (absent : none ∈ parts) : c.outcome parts = none := by
  rcases c.outcome_cases parts with none | ⟨values, rfl, _⟩
  · exact none
  · obtain ⟨v, _, same⟩ := List.mem_map.mp absent
    cases same

/-- A function has no value at an operand of another kind than it needs. -/
theorem withOperands_refused {α : Type} {name : String} {pick : Value → Option α} {v : Value}
    {operands : List Value} {next? : List α → Option (Computation Value)} (member : v ∈ operands)
    (refused : pick v = none) :
    ((withOperands (operandsAs name pick operands) next?).bind fun m => m.result.toOption) =
      none := by
  unfold operandsAs
  rw [mapM_refused member refused]
  rfl

/-- What is neither a vector nor a line. -/
structure Crooked (v : Option Value) : Prop where
  vector : v.bind Value.vector? = none
  line : v.bind Value.line? = none

theorem crooked_none : Crooked none := ⟨rfl, rfl⟩

private theorem mem_of_map_some {v : Value} {values : List Value}
    (member : some v ∈ values.map some) : v ∈ values := by
  obtain ⟨u, listed, same⟩ := List.mem_map.mp member
  cases same
  exact listed

/-- The constructs whose operands are vectors, with what they keep before them. -/
inductive Grammar.Construct.TakesVectors : Construct → List (Option Value) → Prop where
  | function (name : String) : TakesVectors .vectorFunction [some (.text name)]
  | line : TakesVectors .lineThroughPoints []
  | plane : TakesVectors .planeThroughPoints []

theorem Grammar.Construct.TakesVectors.outcome_none {c : Construct}
    {kept operands : List (Option Value)} {v : Option Value} (takes : c.TakesVectors kept)
    (member : v ∈ operands) (refused : v.bind Value.vector? = none) :
    c.outcome (kept ++ operands) = none := by
  cases v with
  | none => exact c.outcome_none (List.mem_append_right kept member)
  | some w =>
    rcases c.outcome_cases (kept ++ operands) with absent | ⟨values, parts, value⟩
    · exact absent
    rw [value]
    cases takes with
    | function name =>
      cases values with
      | nil => cases parts
      | cons first others =>
        obtain ⟨same, rfl⟩ := List.cons.inj parts
        cases same
        exact withOperands_refused (mem_of_map_some member) refused
    | line =>
      obtain rfl : operands = values.map some := parts
      exact withOperands_refused (mem_of_map_some member) refused
    | plane =>
      obtain rfl : operands = values.map some := parts
      exact withOperands_refused (mem_of_map_some member) refused

/-- A point is taken only of a line. -/
theorem outcome_pointOnLine {v : Option Value} {others : List (Option Value)}
    (refused : v.bind Value.line? = none) : Construct.pointOnLine.outcome (v :: others) = none := by
  rcases Construct.pointOnLine.outcome_cases (v :: others) with absent | ⟨values, parts, value⟩
  · exact absent
  rw [value]
  cases values with
  | nil => cases parts
  | cons w rest =>
    obtain ⟨rfl, rfl⟩ := List.cons.inj parts
    cases rest with
    | nil => rfl
    | cons t more =>
      cases more with
      | nil =>
        cases t with
        | number n => exact withOperands_refused List.mem_cons_self refused
        | _ => rfl
      | cons s more => cases t <;> rfl

/-- A plane through points is no vector and no line. -/
theorem crooked_planeThroughPoints (parts : List (Option Value)) :
    Crooked (Construct.planeThroughPoints.outcome parts) := by
  rcases Construct.planeThroughPoints.outcome_cases parts with absent | ⟨values, rfl, value⟩
  · rw [absent]
    exact crooked_none
  rw [value]
  change Crooked ((withOperands (operandsAs "plane" Value.vector? values) planeThrough?).bind _)
  unfold operandsAs
  cases values.mapM Value.vector? with
  | none => exact crooked_none
  | some points =>
    change Crooked ((planeThrough? points).bind _)
    unfold planeThrough?
    split
    · rename_i normal point
      change Crooked (Noted.result (_ >>= _)).toOption
      rw [toOption_bind]
      cases (Plane.through normal point) <;> exact ⟨rfl, rfl⟩
    · rename_i a b c
      change Crooked (Noted.result (_ >>= _)).toOption
      rw [toOption_bind]
      cases (Span.through a b c) <;> exact ⟨rfl, rfl⟩
    · exact crooked_none

/-- Whether a call of a generic function is part of a derivation, however deep. -/
def Grammar.Derivation.Generic {row : List Symbol} : Derivation row → Prop
  | .nil => False
  | .token _ _ later => later.Generic
  | .rule r _ parts later => r.construct? = some .generic ∨ parts.Generic ∨ later.Generic

/-- What is kept of a token. -/
def Grammar.Terminal.leaves (t : Terminal) (text : List Char) : List (Option Value) :=
  if t.isKept then [some (.text (String.ofList text))] else []

theorem outcome_kept (t : Terminal) (text : List Char) :
    (if t.isKept then [Grammar.Tree.token ⟨t, text⟩] else []).map Grammar.Tree.outcome =
      t.leaves text := by
  unfold Grammar.Terminal.leaves
  split <;> rfl

/-- What a rule leaves of what its parts leave. -/
def Grammar.Rule.leaves (r : Rule) (parts : List (Option Value)) : List (Option Value) :=
  match r.construct? with
  | some c => [c.outcome parts]
  | none => parts

/-- A row of symbols is found at the front of a text without any generic function, and leaves values
and the rest of the text. -/
inductive Leaves : List Symbol → List Char → List (Option Value) → List Char → Prop where
  | nil {text : List Char} : Leaves [] text [] (skip text)
  | token {t : Terminal} {n : Nat} {row : List Symbol} {text rest : List Char}
      {values : List (Option Value)} (found : t.match? (skip text) = some n)
      (later : Leaves row ((skip text).drop n) values rest) :
      Leaves (.terminal t :: row) text (t.leaves ((skip text).take n) ++ values) rest
  | rule {n : Nonterminal} {r : Rule} {row : List Symbol} {text middle rest : List Char}
      {parts values : List (Option Value)} (member : r ∈ n.rules)
      (plain : r.construct? ≠ some .generic) (inner : Leaves r.symbols text parts middle)
      (later : Leaves row middle values rest) :
      Leaves (.nonterminal n :: row) text (r.leaves parts ++ values) rest

/-- A derivation without generic functions leaves the values of its trees. -/
theorem Grammar.Derivation.leaves {row : List Symbol} (d : Derivation row) (plain : ¬ d.Generic)
    {text rest : List Char} (cut : Cut text d.tokens rest) :
    Leaves row text (d.trees.map Grammar.Tree.outcome) rest := by
  induction d generalizing text rest with
  | nil =>
    cases cut
    exact .nil
  | token t spelling later ih =>
    cases cut with
    | cons found after =>
      rw [Derivation.trees, List.map_append, outcome_kept]
      exact .token found (ih plain after)
  | rule r member parts later parts_ih later_ih =>
    obtain ⟨middle, inner, outer⟩ := cut.split
    rw [Derivation.Generic, not_or, not_or] at plain
    obtain ⟨here, inside, behind⟩ := plain
    have whole := Leaves.rule member here (parts_ih inside inner) (later_ih behind outer)
    rw [Derivation.trees, List.map_append]
    unfold Grammar.Rule.leaves at whole
    cases named : r.construct? with
    | none =>
      rw [named] at whole
      exact whole
    | some c =>
      rw [named] at whole
      rw [List.map_singleton, Grammar.Tree.outcome_node]
      exact whole

namespace Leaves

variable {row more : List Symbol} {text other rest : List Char} {values : List (Option Value)}

/-- Separators in front make no difference. -/
theorem of_skip (same : skip text = skip other) (leaves : Leaves row text values rest) :
    Leaves row other values rest := by
  induction leaves generalizing other with
  | nil =>
    rw [same]
    exact .nil
  | token found later ih =>
    rw [same] at found later ⊢
    exact .token found later
  | rule member plain inner later inner_ih later_ih =>
    exact .rule member plain (inner_ih same) later

theorem split (leaves : Leaves (row ++ more) text values rest) :
    ∃ front back middle, values = front ++ back ∧ Leaves row text front middle ∧
      Leaves more middle back rest := by
  induction row generalizing text values with
  | nil => exact ⟨[], values, skip text, rfl, .nil, leaves.of_skip (skip_skip text).symm⟩
  | cons s row ih =>
    cases leaves with
    | token found later =>
      obtain ⟨front, back, middle, rfl, first, second⟩ := ih later
      exact ⟨_, back, middle, (List.append_assoc ..).symm, .token found first, second⟩
    | rule member plain inner later =>
      obtain ⟨front, back, middle, rfl, first, second⟩ := ih later
      exact ⟨_, back, middle, (List.append_assoc ..).symm, .rule member plain inner first, second⟩

theorem skip_rest (leaves : Leaves row text values rest) : skip rest = rest := by
  induction leaves with
  | nil => exact skip_skip _
  | token found later ih => exact ih
  | rule member plain inner later inner_ih later_ih => exact later_ih

theorem length_le (leaves : Leaves row text values rest) : rest.length ≤ text.length := by
  induction leaves with
  | nil => exact length_skip _
  | token found later ih =>
    refine Nat.le_trans ih (Nat.le_trans ?_ (length_skip _))
    rw [List.length_drop]
    exact Nat.sub_le ..
  | rule member plain inner later inner_ih later_ih => exact Nat.le_trans later_ih inner_ih

theorem nil_inv (leaves : Leaves [] text values rest) : values = [] ∧ rest = skip text := by
  cases leaves
  exact ⟨rfl, rfl⟩

/-- What is solid begins with an opener. -/
theorem not_startless (leaves : Leaves row text values rest) {s : Symbol}
    (front : row.head? = some s) (solid : Canonical.isSolid s = true) :
    ¬ Canonical.Startless text := by
  intro startless
  induction leaves generalizing s with
  | nil => cases front
  | token found later ih =>
    cases front
    rw [startless _ (List.contains_iff_mem.mp solid)] at found
    cases found
  | rule member plain inner later inner_ih later_ih =>
    cases front
    obtain ⟨s, first, solid⟩ := Canonical.front_isSolid member solid
    exact inner_ih first solid startless

end Leaves

end SolidGeometry
