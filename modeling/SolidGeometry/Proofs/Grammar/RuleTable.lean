import SolidGeometry.Proofs.Grammar.Derivation
import SolidGeometry.Proofs.Number.Spellings

namespace SolidGeometry.Grammar

variable {n m : Nonterminal} {r : Rule}

theorem mem_all (n : Nonterminal) : n ∈ Nonterminal.all := by
  cases n <;> decide

theorem origin_of_mem_rules (member : r ∈ n.rules) : r.origin = n := by
  simp only [Nonterminal.rules, List.mem_map] at member
  obtain ⟨alternative, _, rfl⟩ := member
  rfl

theorem mem_predictions (member : r ∈ n.rules) : r ∈ n.predictions := by
  revert r
  cases n <;> decide +kernel

theorem mem_rules_of_mem_predictions (member : r ∈ n.predictions) : r ∈ r.origin.rules := by
  revert r
  cases n <;> decide +kernel

/-- How many nonterminals may stand at the front of one another, from this one on. -/
def Nonterminal.height : Nonterminal → Nat
  | .start | .operand => 4
  | .literal | .lineOperand | .planeOperand | .spanOperand => 3
  | .line | .span | .vectorOperand => 2
  | .vector | .plane => 1
  | .call | .nested | .link | .number => 0

theorem height_lt (member : r ∈ n.rules) (front : r.symbols[0]? = some (.nonterminal m)) :
    m.height < n.height := by
  have table : ∀ r ∈ n.rules, ∀ m ∈ Nonterminal.all, r.symbols[0]? = some (.nonterminal m) →
      m.height < n.height := by cases n <;> decide +kernel
  exact table r member m (mem_all m) front

theorem height_le (n : Nonterminal) : n.height ≤ 4 := by
  cases n <;> decide

theorem length_symbols_lt (member : r ∈ n.rules) : r.symbols.length < 15 := by
  revert r
  cases n <;> decide +kernel

/-- Only links can be empty. -/
theorem eq_link_of_symbols_nil (member : r ∈ n.rules) (empty : r.symbols = []) : n = .link := by
  revert r
  cases n <;> decide +kernel

theorem front_ne_link (member : r ∈ n.rules) : r.symbols[0]? ≠ some (.nonterminal .link) := by
  intro front
  have lower := height_lt member front
  revert r
  cases n <;> decide +kernel

theorem length_symbols_start (member : r ∈ Nonterminal.start.rules) : r.symbols.length = 1 := by
  revert r
  decide +kernel

def Symbol.treeCount : Symbol → Nat
  | .terminal t => if t.isKept then 1 else 0
  | .nonterminal .link => 0
  | .nonterminal _ => 1

/-- The number of trees that a rule leaves: one of its own construct, or those of its parts. -/
def Rule.treeCount (r : Rule) : Nat :=
  match r.construct? with
  | some _ => 1
  | none => (r.symbols.map Symbol.treeCount).sum

theorem treeCount_rule (member : r ∈ n.rules) :
    r.treeCount = Symbol.treeCount (.nonterminal n) := by
  revert r
  cases n <;> decide +kernel

theorem Derivation.length_trees {row : List Symbol} (d : Derivation row) :
    d.trees.length = (row.map Symbol.treeCount).sum := by
  induction d with
  | nil => rfl
  | token t text later ih =>
    cases kept : t.isKept <;> simp [trees, Symbol.treeCount, kept, ih, Nat.add_comm]
  | rule r member parts later parts_ih later_ih =>
    have counted := treeCount_rule member
    unfold Rule.treeCount at counted
    cases named : r.construct? with
    | some construct =>
      rw [named] at counted
      simp [trees, named, later_ih, ← counted, Nat.add_comm]
    | none =>
      rw [named] at counted
      simp [trees, named, parts_ih, later_ih, ← counted]

/-- A whole derivation has one tree. -/
theorem Derivation.exists_tree (d : Derivation [.nonterminal .start]) :
    ∃ tree, d.trees = [tree] :=
  List.length_eq_one_iff.mp d.length_trees

/-- The constructs of functions that are called by a name. -/
def callConstructs : List Construct := [.vectorFunction, .planeFunction, .generic]

/-- What the names of these functions are read as. -/
def callNames : List Terminal := [.vectorFunction, .pairFunction, .planeFunction, .generic]

/-- The rule of a call begins with the name. -/
theorem symbols_of_call {c : Construct} (member : r ∈ n.rules) (named : r.construct? = some c)
    (call : c ∈ callConstructs) :
    ∃ t rest, r.symbols = .terminal t :: rest ∧ t ∈ callNames := by
  have table : ∀ r ∈ n.rules, r.construct?.all (fun c => decide (c ∈ callConstructs →
      ∃ t ∈ callNames, r.symbols.head? = some (.terminal t))) = true := by
    cases n <;> decide +kernel
  have row := table r member
  rw [named, Option.all_some, decide_eq_true_eq] at row
  obtain ⟨t, listed, first⟩ := row call
  obtain ⟨rest, symbols⟩ := List.head?_eq_some_iff.mp first
  exact ⟨t, rest, symbols, listed⟩

section

variable {row : List Symbol} {c : Construct} {children : List Tree}

/-- The children of a construct, however deep it stands, are the trees of a derivation by its
rule. -/
theorem Derivation.exists_rule (d : Derivation row)
    (inside : .node c children ∈ Tree.subtreesAll d.trees) :
    ∃ n r, r ∈ Nonterminal.rules n ∧ r.construct? = some c ∧
      ∃ e : Derivation r.symbols, e.trees = children ∧ e.tokens ⊆ d.tokens := by
  induction d with
  | nil => cases inside
  | token t text later ih =>
    rw [trees, Tree.subtreesAll_append, List.mem_append] at inside
    rcases inside with front | behind
    · split at front
      · cases List.mem_singleton.mp front
      · cases front
    · obtain ⟨n, r, listed, named, e, same, shown⟩ := ih behind
      exact ⟨n, r, listed, named, e, same, List.subset_cons_of_subset _ shown⟩
  | @rule row n r listed parts later parts_ih later_ih =>
    rw [trees, Tree.subtreesAll_append, List.mem_append] at inside
    rcases inside with front | behind
    · have under : r.construct? = some c ∧ parts.trees = children ∨
          .node c children ∈ Tree.subtreesAll parts.trees := by
        cases construct : r.construct? with
        | some _ => simpa [construct, Tree.subtreesAll, Tree.subtrees, eq_comm] using front
        | none => simpa [construct] using front
      rcases under with ⟨named, rfl⟩ | under
      · exact ⟨n, r, listed, named, parts, rfl, List.subset_append_left _ _⟩
      · obtain ⟨n, r, listed, named, e, same, shown⟩ := parts_ih under
        exact ⟨n, r, listed, named, e, same, List.subset_append_of_subset_left _ shown⟩
    · obtain ⟨n, r, listed, named, e, same, shown⟩ := later_ih behind
      exact ⟨n, r, listed, named, e, same, List.subset_append_of_subset_right _ shown⟩

/-- The children of a call are the name and the trees of a derivation. -/
theorem Derivation.exists_call (d : Derivation row)
    (inside : .node c children ∈ Tree.subtreesAll d.trees) (call : c ∈ callConstructs) :
    ∃ u operands, children = .token u :: operands ∧ u ∈ d.tokens ∧ u.terminal ∈ callNames ∧
      ∃ (rest : List Symbol) (e : Derivation rest), e.trees = operands ∧ e.tokens ⊆ d.tokens := by
  have kept : ∀ t ∈ callNames, t.isKept = true := by decide
  obtain ⟨n, r, listed, named, e, rfl, shown⟩ := d.exists_rule inside
  obtain ⟨t, rest, symbols, name⟩ := symbols_of_call listed named call
  obtain ⟨f, tokens, same⟩ := exists_of_eq symbols e
  rw [← same]
  rw [← tokens] at shown
  cases f with
  | token _ text later =>
    refine ⟨⟨t, text⟩, later.trees, by simp [trees, kept t name], shown List.mem_cons_self, name,
      rest, later, rfl, ?_⟩
    exact fun u member => shown (List.mem_cons_of_mem _ member)

end

theorem match?_of_isSeparator (t : Terminal) {c : Char} (text : List Char)
    (separator : isSeparator c = true) : t.match? (c :: text) = none := by
  have listed : c = ' ' ∨ c = '\t' ∨ c = ',' := by simpa [isSeparator, or_assoc] using separator
  rcases listed with rfl | rfl | rfl <;> cases t <;> rfl

/-- No token begins with a separator. -/
theorem skip_of_match? {t : Terminal} {text : List Char} {size : Nat}
    (found : t.match? text = some size) : skip text = text := by
  cases text with
  | nil => rfl
  | cons c rest =>
    by_cases separator : isSeparator c = true
    · rw [match?_of_isSeparator t rest separator] at found
      cases found
    · simp [skip, separator]

/-- A literal takes at least one digit. -/
theorem length_scan? {text rest : List Char} {literal : Number.Literal}
    (found : Number.Literal.scan? text = some (literal, rest)) : rest.length < text.length := by
  obtain ⟨l, _, rfl⟩ := Number.exists_spacedLiteral found
  obtain ⟨c, more, text, _⟩ := l.exists_cons
  rw [text, List.length_append, List.length_cons]
  omega

/-- A token has at least one character, and all of them are there. -/
theorem match?_bounds {t : Terminal} {text : List Char} {size : Nat}
    (found : t.match? text = some size) : 0 < size ∧ size ≤ text.length := by
  unfold Terminal.match? at found
  cases shape : t.pattern with
  | letters =>
    rw [shape] at found
    simp only [Pattern.match?] at found
    split at found
    · cases found
    · rename_i count taken
      have bound := (List.takeWhile_sublist (l := text) isLetter).length_le
      cases found
      omega
  | literal =>
    rw [shape] at found
    simp only [Pattern.match?, Option.map_eq_some_iff] at found
    obtain ⟨scanned, scan, rfl⟩ := found
    have shorter := length_scan? scan
    omega
  | spellings texts =>
    rw [shape] at found
    simp only [Pattern.match?, Option.map_eq_some_iff] at found
    obtain ⟨spelling, first, rfl⟩ := found
    have listed := List.mem_of_find?_eq_some first
    have front := List.isPrefixOf_iff_prefix.mp
      (List.find?_some (p := fun spelling : String => spelling.toList.isPrefixOf text) first)
    refine ⟨?_, by rw [← String.length_toList]; exact front.length_le⟩
    have nonempty : ∀ spelling ∈ texts, 0 < spelling.length := by
      cases t <;> cases shape <;> decide
    exact nonempty spelling listed

theorem separators?_bounds {text : List Char} {size : Nat} (found : separators? text = some size) :
    0 < size ∧ size ≤ text.length ∧ text.drop size = skip text := by
  unfold separators? at found
  split at found
  · cases found
  · rename_i count taken
    have bound := (List.takeWhile_sublist (l := text) isSeparator).length_le
    have parts := List.takeWhile_append_dropWhile (p := isSeparator) (l := text)
    obtain rfl := Option.some.inj found
    refine ⟨by omega, by omega, ?_⟩
    change text.drop count.succ = skip text
    rw [← taken]
    exact (congrArg (List.drop _) parts.symm).trans List.drop_left

theorem skip_of_separators? {text : List Char} (absent : separators? text = none) :
    skip text = text := by
  unfold separators? at absent
  split at absent
  · rename_i empty
    have parts := List.takeWhile_append_dropWhile (p := isSeparator) (l := text)
    rw [List.length_eq_zero_iff.mp empty] at parts
    exact parts
  · cases absent

end SolidGeometry.Grammar
