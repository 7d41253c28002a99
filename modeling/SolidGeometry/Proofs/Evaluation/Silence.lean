import SolidGeometry.Proofs.Evaluation.Exactness

/-! Expressions whose value is not a number. As long as nothing is computed with unit vectors, what
is not a number was warned of, or it is the angle of a plane with a vector without length. -/
namespace SolidGeometry
open Grammar

variable {warned : Prop}

namespace Grammar.Derivation

variable {row : List Symbol} {c : Construct} {children : List Tree} {tree : Tree}

/-- A tree without decimal places in which no call normalizes is an operand of an exact
expression. -/
theorem kept_of_mem (d : Derivation row) (member : tree ∈ d.trees)
    (whole : ∀ t ∈ tree.tokens, t.terminal = .number → '.' ∉ t.text)
    (plain : ∀ part ∈ tree.subtrees, ¬part.Normalizes) : tree.Kept warned .operand := by
  cases tree with
  | token t => exact .pure (.inl (Value.exactUnless_of_numbers rfl))
  | node c children =>
    obtain ⟨n, r, listed, named, e, rfl, -⟩ :=
      d.exists_rule (Tree.mem_subtreesAll.mpr ⟨_, member, Tree.mem_subtrees_self _⟩)
    rw [Tree.subtrees, List.forall_mem_cons] at plain
    have each : ∀ t ∈ e.tokens, t.terminal = .number → '.' ∉ t.text := by
      intro t shown numeral
      refine whole t ?_ numeral
      rw [Tree.tokens, e.tokensAll_trees]
      exact List.mem_filter.mpr ⟨shown, by rw [numeral]; rfl⟩
    exact (Tree.Kept.node (parts_mem_arities listed named).1 (e.kept each plain.2) plain.1).operand

end Grammar.Derivation

namespace Grammar.Tree

/-- The operands of a construct, which are its children without the name of a call. -/
def operands : Tree → List Tree
  | token _ => []
  | node c children => if c ∈ callConstructs then children.tail else children

/-- An operand of the tree is computed with the floats of a unit vector. -/
def NormalizesInside (tree : Tree) : Prop :=
  ∃ operand ∈ tree.operands, ∃ part ∈ operand.subtrees, part.Normalizes

instance (tree : Tree) : Decidable tree.NormalizesInside :=
  inferInstanceAs (Decidable (∃ operand ∈ tree.operands, ∃ part ∈ operand.subtrees,
    part.Normalizes))

/-- The tree is a call for the angle of two elements, a plane and a vector without length. -/
def IsAngleOfNothing (tree first second : Tree) : Prop :=
  ∃ u x y, tree = node .generic [token u, first, second] ∧ String.ofList u.text = "angle" ∧
    first.value.result = .ok (.element x) ∧ second.value.result = .ok (.element y) ∧
      x.FacesNothing y

theorem values_result {trees : List Tree} {vs : List Value}
    (returns : (values trees).result = .ok vs) :
    List.Forall₂ (fun tree v => tree.value.result = .ok v) trees vs := by
  induction trees generalizing vs with
  | nil =>
    cases returns
    exact .nil
  | cons tree rest ih =>
    obtain ⟨v, first, others⟩ := Noted.result_bind.mp returns
    obtain ⟨us, later, same⟩ := Noted.result_bind.mp others
    cases same
    exact .cons first (ih later)

theorem values_cons {tree : Tree} {trees : List Tree} {v : Value} {vs : List Value}
    (first : tree.value.result = .ok v) (later : (values trees).result = .ok vs) :
    (values (tree :: trees)).result = .ok (v :: vs) ∧
      (values (tree :: trees)).warnings = tree.value.warnings ++ (values trees).warnings := by
  rw [values, Noted.result_bind_of_ok _ first, Noted.warnings_bind first,
    Noted.result_bind_of_ok _ later, Noted.warnings_bind later]
  exact ⟨rfl, by simp [Noted.warnings]⟩

/-- What a call of an operation on two elements reports and results in. -/
theorem value_generic {u : Token} {first second : Tree} {x y : Element}
    (front : first.value.result = .ok (.element x))
    (back : second.value.result = .ok (.element y)) :
    (node .generic [token u, first, second]).value.result =
        (operate (String.ofList u.text) x y).result.mapError (EvaluationError.ofFault .generic) ∧
      (node .generic [token u, first, second]).value.warnings =
        first.value.warnings ++ (second.value.warnings ++
          (operate (String.ofList u.text) x y).warnings) := by
  have name : (token u).value.result = .ok (.text (String.ofList u.text)) := rfl
  have done : (values []).result = .ok [] := rfl
  obtain ⟨last, last_warnings⟩ := values_cons back done
  obtain ⟨behind, behind_warnings⟩ := values_cons front last
  obtain ⟨all, warnings⟩ := values_cons name behind
  rw [value, Noted.result_bind_of_ok _ all, Noted.warnings_bind all, warnings, behind_warnings,
    last_warnings]
  refine ⟨rfl, ?_⟩
  change [] ++ (first.value.warnings ++ (second.value.warnings ++ [])) ++
    (operate (String.ofList u.text) x y).warnings = _
  simp only [List.nil_append, List.append_nil, List.append_assoc]

theorem element_of_picked {v : Value} {x : Element} (picked : v.element? = some x) :
    v = .element x := by
  unfold Value.element? at picked
  split at picked <;> cases picked
  rfl

/-- Operations are only called on two elements. -/
theorem generic_operands {u : Token} {trees : List Tree} {v : Value}
    (returns : (node .generic (token u :: trees)).value.result = .ok v) :
    ∃ first second x y, trees = [first, second] ∧ first.value.result = .ok (.element x) ∧
      second.value.result = .ok (.element y) := by
  rw [value] at returns
  obtain ⟨parts, given, computed⟩ := Noted.result_bind.mp returns
  obtain _ | ⟨shown, others⟩ := values_result given
  cases shown
  rename_i vs
  have picked : ∃ x y, vs.mapM Value.element? = some [x, y] := by
    rw [Construct.computation?, operandsAs] at computed
    cases all : vs.mapM Value.element? with
    | none =>
      rw [all] at computed
      cases computed
    | some found =>
      rw [all] at computed
      obtain _ | ⟨x, _ | ⟨y, _ | _⟩⟩ := found
      · cases computed
      · cases computed
      · exact ⟨x, y, rfl⟩
      · cases computed
  obtain ⟨x, y, picked⟩ := picked
  obtain ⟨p, q, rfl⟩ := List.length_eq_two.mp (length_mapM picked).symm
  simp only [List.mapM_cons, List.mapM_nil, Option.bind_eq_bind, Option.bind_eq_some_iff] at picked
  obtain ⟨x', first, _, ⟨y', second, _⟩, _⟩ := picked
  obtain _ | ⟨front, _ | ⟨back, ⟨⟩⟩⟩ := others
  rw [element_of_picked first] at front
  rw [element_of_picked second] at back
  exact ⟨_, _, x', y', rfl, front, back⟩

theorem tokens_of_operand {tree operand : Tree} (listed : operand ∈ tree.operands) {t : Token}
    (shown : t ∈ operand.tokens) : t ∈ tree.tokens := by
  cases tree with
  | token u => cases listed
  | node c children =>
    refine mem_tokensAll.mpr ⟨operand, ?_, shown⟩
    rw [operands] at listed
    split at listed
    · exact List.mem_of_mem_tail listed
    · exact listed

/-- Only calls by a name can measure. -/
theorem unmeasured_of_not_call {c : Construct} {children : List Tree} (plain : c ∉ callConstructs) :
    ∀ name ∈ (node c children).function?, name ∉ measuringNames := by
  have written : ∀ name ∈ ["lwith", "pwith", "line", "plane"], name ∉ measuringNames := by decide
  exact fun name called => written name (function?_of_not_call plain name called)

section

variable {u : Token} {trees : List Tree} {v : Value}
  (kept : ∀ operand ∈ trees, operand.Kept warned .operand)

include kept

theorem vectorCall_numbers : (node .vectorFunction (token u :: trees)).value.Keeps warned
    (Value.NumberUnless warned) := by
  refine keeps_node (keeps_values_cons (P := (· = .text (String.ofList u.text))) (.pure rfl)
    (keeps_values fun tree listed => (kept tree listed).usable)) ?_
  rintro _ ⟨_, vs, rfl, rfl, usable⟩ m computed
  exact keeps_vectorCall_numbers usable computed

theorem planeCall_numbers : (node .planeFunction (token u :: trees)).value.Keeps warned
    (Value.NumberUnless warned) := by
  refine keeps_node (keeps_values_cons (P := (· = .text (String.ofList u.text))) (.pure rfl)
    (keeps_values fun tree listed => (kept tree listed).usable)) ?_
  rintro _ ⟨_, vs, rfl, rfl, usable⟩ m computed
  exact (keeps_planeCall usable computed).imp fun _ => Value.ExactUnless.numberUnless

end

/-- An operation on two operands has numbers as its result, or warns, or was asked for the angle of
a plane with a vector without length. -/
theorem generic_lost {u : Token} {trees : List Tree} {v : Value}
    (kept : ∀ operand ∈ trees, operand.Kept False .operand)
    (returns : (node .generic (token u :: trees)).value.result = .ok v)
    (lost : ∃ n ∈ v.numbers, n.isNaN = true) :
    (node .generic (token u :: trees)).value.Reports ∨ String.ofList u.text = "angle" ∧
      (ArcCosineFails ∨ ∃ a b, (node .generic (token u :: trees)).IsAngleOfNothing a b) := by
  obtain ⟨first, second, x, y, rfl, front, back⟩ := generic_operands returns
  obtain ⟨result, warnings⟩ := value_generic (u := u) front back
  by_cases warns : (node .generic [token u, first, second]).value.Warned
  · exact .inl warns.reports
  have exact {operand : Tree} {z : Element} (listed : operand ∈ [first, second])
      (inside : ∀ w ∈ operand.value.warnings,
        w ∈ (node .generic [token u, first, second]).value.warnings)
      (given : operand.value.result = .ok (.element z)) : z.IsExact := by
    have covered : operand.value.Warned → False := fun ⟨w, shown, code⟩ =>
      warns ⟨w, inside w shown, code⟩
    exact Element.ExactUnless.isExact ((kept operand listed).usable covered _ given z rfl)
  have x_exact : x.IsExact := exact (by simp) (fun w shown => by simp [warnings, shown]) front
  have y_exact : y.IsExact := exact (by simp) (fun w shown => by simp [warnings, shown]) back
  have operated : (operate (String.ofList u.text) x y).result = .ok v := by
    rw [result] at returns
    cases done : (operate (String.ofList u.text) x y).result with
    | ok w =>
      rw [done] at returns
      exact congrArg Except.ok (Except.ok.inj returns)
    | error e =>
      rw [done] at returns
      cases returns
  rcases operate_lost x_exact y_exact operated lost with ⟨w, shown, code⟩ | ⟨named, cause⟩
  · exact .inl ⟨w, by simp [warnings, shown], code⟩
  · exact .inr ⟨named, cause.imp_right fun faces =>
      ⟨first, second, u, x, y, rfl, named, front, back, faces⟩⟩

/-- A construct that is not a call has numbers as its value, or warns. -/
theorem reports_of_not_call {c : Construct} {children : List Tree} {v : Value} {n : Scalar}
    (plain : c ∉ callConstructs)
    (kept : (node c children).Kept (node c children).value.Warned .operand)
    (returns : (node c children).value.result = .ok v) (numbers : n ∈ v.numbers)
    (none : n.isNaN = true) : (node c children).value.Reports := by
  rcases kept id v returns with exact | ⟨name, called, result⟩
  · exact Noted.Warned.reports (exact.numberUnless n numbers none)
  · have unmeasured := unmeasured_of_not_call plain name called
    have exact := result.resolve_right fun measured => unmeasured measured.1
    exact Noted.Warned.reports (exact.numberUnless n numbers none)

end Grammar.Tree

/-- A tree of a derivation has numbers as its value, or warns, or is one of the known exceptions. -/
theorem Grammar.Derivation.lost {row : List Symbol} (d : Derivation row) {tree : Tree}
    (member : tree ∈ d.trees) (whole : ∀ t ∈ tree.tokens, t.terminal = .number → '.' ∉ t.text)
    (plain : ¬tree.NormalizesInside) {v : Value} (returns : tree.value.result = .ok v)
    (lost : ∃ n ∈ v.numbers, n.isNaN = true) :
    tree.value.Reports ∨ (∃ a b, tree.IsAngleOfNothing a b) ∨
      tree.function? = some "angle" ∧ ArcCosineFails := by
  have each : ∀ operand ∈ tree.operands, ∀ t ∈ operand.tokens, t.terminal = .number →
      '.' ∉ t.text := fun operand listed t shown => whole t (Tree.tokens_of_operand listed shown)
  have inner : ∀ operand ∈ tree.operands, ∀ part ∈ operand.subtrees, ¬part.Normalizes :=
    fun operand listed part inside unit => plain ⟨operand, listed, part, inside, unit⟩
  obtain ⟨n, numbers, none⟩ := lost
  cases tree with
  | token t =>
    cases returns
    cases numbers
  | node c children =>
    by_cases call : c ∈ callConstructs
    · obtain ⟨u, operands, rfl, -, -, rest, e, rfl, -⟩ :=
        d.exists_call (Tree.mem_subtreesAll.mpr ⟨_, member, Tree.mem_subtrees_self _⟩) call
      have listed : (Tree.node c (.token u :: e.trees)).operands = e.trees := if_pos call
      rw [listed] at each inner
      have kept (warned : Prop) : ∀ operand ∈ e.trees, operand.Kept warned .operand :=
        fun operand inside => e.kept_of_mem inside (each operand inside) (inner operand inside)
      simp only [callConstructs, List.mem_cons, List.not_mem_nil, or_false] at call
      rcases call with rfl | rfl | rfl
      · exact .inl (Noted.Warned.reports
          (Tree.vectorCall_numbers (kept _) id v returns n numbers none))
      · exact .inl (Noted.Warned.reports
          (Tree.planeCall_numbers (kept _) id v returns n numbers none))
      · rcases Tree.generic_lost (kept _) returns ⟨n, numbers, none⟩ with
          reports | ⟨named, fails | nothing⟩
        · exact .inl reports
        · exact .inr (.inr ⟨congrArg some named, fails⟩)
        · exact .inr (.inl nothing)
    · have listed : (Tree.node c children).operands = children := if_neg call
      rw [listed] at inner
      have kept : (Tree.node c children).Kept (Tree.node c children).value.Warned .operand :=
        d.kept_of_mem member whole ?_
      · exact .inl (Tree.reports_of_not_call call kept returns numbers none)
      intro part inside unit
      rw [Tree.subtrees, List.mem_cons] at inside
      rcases inside with rfl | inside
      · exact absurd (Tree.function?_of_not_call call _ unit.1) (by decide)
      · obtain ⟨operand, listed, deep⟩ := Tree.mem_subtreesAll.mp inside
        exact inner operand listed part deep unit

/-- What is not a number is not silent, but for one function. The angle of a plane with a vector
without length is not a number, and nothing is reported of it. Any other expression of integers and
fractions whose value has a number that is none has left a warning, as long as it does not compute
with unit vectors, whose floats may overflow, and the arc cosine is defined on its domain. -/
theorem undefined_reported {text : String} {tree : Grammar.Tree}
    (found : Grammar.read text = .ok tree) :
    (∀ a b, tree.IsAngleOfNothing a b → ∃ n, (evaluate text).result = .ok (.number n) ∧
      n.isNaN = true ∧ (evaluate text).warnings = a.value.warnings ++ b.value.warnings) ∧
    ((∀ t ∈ tree.tokens, t.terminal = .number → '.' ∉ t.text) → ∀ v,
      (evaluate text).result = .ok v → (∃ n ∈ v.numbers, n.isNaN = true) →
        (evaluate text).Reports ∨ (∃ a b, tree.IsAngleOfNothing a b) ∨
          tree.function? = some "angle" ∧ ArcCosineFails ∨ tree.NormalizesInside) := by
  constructor
  · rintro a b ⟨u, x, y, rfl, named, front, back, faces⟩
    obtain ⟨result, warnings⟩ := Grammar.Tree.value_generic (u := u) front back
    have answers : (operate (String.ofList u.text) x y).Quiet
        (.number (.float (Number.notANumber - 90.0))) := by
      rw [named]
      exact faces.answers
    refine ⟨.float (Number.notANumber - 90.0), ?_, ?_, ?_⟩
    · rw [result_evaluate found, result, answers.result]
      rfl
    · rw [Scalar.isNaN_float]
      decide +kernel
    · rw [warnings_evaluate found, warnings, answers.warnings, List.append_nil]
  · intro whole v returns lost
    obtain ⟨d, -, single, -⟩ := exists_derivation_of_read found
    have member : tree ∈ d.trees := by
      rw [single]
      exact List.mem_singleton_self _
    rw [result_evaluate found] at returns
    rw [Noted.Reports, warnings_evaluate found]
    by_cases inside : tree.NormalizesInside
    · exact .inr (.inr (.inr inside))
    · rcases d.lost member whole inside returns lost with reports | nothing | fails
      · exact .inl reports
      · exact .inr (.inl nothing)
      · exact .inr (.inr (.inl fails))

/-- The angle of a plane with a vector without length leaves no warning, and the unit vector of such
a vector inside of a call leaves one. -/
theorem undefined_reported_angle :
    (∃ tree a b n, Grammar.read "angle 1 2 3 4, (0, 0, 0)" = .ok tree ∧
      tree.IsAngleOfNothing a b ∧
      (evaluate "angle 1 2 3 4, (0, 0, 0)").result = .ok (.number n) ∧ n.isNaN = true ∧
      (evaluate "angle 1 2 3 4, (0, 0, 0)").warnings = []) ∧
    ∃ tree v, Grammar.read "cross (normalize (0, 0, 0)) (1, 2, 3)" = .ok tree ∧
      (∀ t ∈ tree.tokens, t.terminal = .number → '.' ∉ t.text) ∧ ¬tree.NormalizesInside ∧
      (evaluate "cross (normalize (0, 0, 0)) (1, 2, 3)").result = .ok v ∧
      (∃ n ∈ v.numbers, n.isNaN = true) ∧
      (evaluate "cross (normalize (0, 0, 0)) (1, 2, 3)").Reports := by
  constructor
  · let numeral (digit : Char) : Grammar.Tree := .node .number [.token ⟨.number, [digit]⟩]
    let a : Grammar.Tree :=
      .node .plane [numeral '1', numeral '2', numeral '3', numeral '4']
    let b : Grammar.Tree := .node .vector [numeral '0', numeral '0', numeral '0']
    have found : Grammar.read "angle 1 2 3 4, (0, 0, 0)" =
        .ok (.node .generic [.token ⟨.generic, "angle".toList⟩, a, b]) := by
      decide +kernel
    have front : a.value.result = .ok (.element (.plane ⟨⟨.int 1, .int 2, .int 3⟩, .int 4⟩)) := rfl
    have back : b.value.result = .ok (.element (.vector ⟨.int 0, .int 0, .int 0⟩)) := rfl
    have nonzero : (⟨1, 2, 3⟩ : Point) ≠ 0 := by decide
    have faces : Element.FacesNothing (.plane ⟨⟨.int 1, .int 2, .int 3⟩, .int 4⟩)
        (.vector ⟨.int 0, .int 0, .int 0⟩) :=
      .inl ⟨⟨⟨1, 2, 3⟩, 4, .plane ⟨rfl, rfl⟩ nonzero⟩, .vector rfl⟩
    have angle : Grammar.Tree.IsAngleOfNothing
        (.node .generic [.token ⟨.generic, "angle".toList⟩, a, b]) a b :=
      ⟨_, _, _, rfl, rfl, front, back, faces⟩
    obtain ⟨n, returns, none, warnings⟩ := (undefined_reported found).1 a b angle
    exact ⟨_, a, b, n, found, angle, returns, none, warnings⟩
  · have checked : (Grammar.read "cross (normalize (0, 0, 0)) (1, 2, 3)").toOption.any (fun tree =>
        decide (∀ t ∈ tree.tokens, t.terminal = .number → '.' ∉ t.text) &&
          decide (¬tree.NormalizesInside) && decide (tree.function? = some "cross") &&
          tree.value.result.toOption.any (·.numbers.any Scalar.isNaN)) = true := by
      decide +kernel
    obtain ⟨tree, found, holds⟩ := any_toOption.mp checked
    simp only [Bool.and_eq_true, decide_eq_true_eq] at holds
    obtain ⟨⟨⟨whole, plain⟩, named⟩, undefined⟩ := holds
    obtain ⟨v, done, undefined⟩ := any_toOption.mp undefined
    have lost : ∃ n ∈ v.numbers, n.isNaN = true := List.any_eq_true.mp undefined
    have returns := (result_evaluate found).trans done
    refine ⟨tree, v, found, whole, plain, returns, lost, ?_⟩
    rcases (undefined_reported found).2 whole v returns lost with
      reports | ⟨a, b, u, x, y, rfl, angle, -⟩ | ⟨angle, -⟩ | inside
    · exact reports
    · change some (String.ofList u.text) = some "cross" at named
      rw [angle] at named
      exact absurd named (by decide)
    · rw [angle] at named
      exact absurd named (by decide)
    · exact absurd inside plain

end SolidGeometry
