import Mathlib
import SolidGeometry.Grammar.Reading

namespace SolidGeometry.Grammar

/-- A derivation of a row of symbols. -/
inductive Derivation : List Symbol → Type where
  | nil : Derivation []
  | token {row : List Symbol} (t : Terminal) (text : List Char) (later : Derivation row) :
      Derivation (.terminal t :: row)
  | rule {row : List Symbol} {n : Nonterminal} (r : Rule) (member : r ∈ n.rules)
      (parts : Derivation r.symbols) (later : Derivation row) :
      Derivation (.nonterminal n :: row)

namespace Derivation

variable {row next : List Symbol}

def append {row : List Symbol} : Derivation row → Derivation next → Derivation (row ++ next)
  | nil, e => e
  | token t text later, e => token t text (later.append e)
  | rule r member parts later, e => rule r member parts (later.append e)

def tokens {row : List Symbol} : Derivation row → List Token
  | nil => []
  | token t text later => ⟨t, text⟩ :: later.tokens
  | rule _ _ parts later => parts.tokens ++ later.tokens

/-- The trees of a derivation: constructs have nodes of their own, all other rules leave their
parts to the construct around them, and of the tokens only some are kept. -/
def trees {row : List Symbol} : Derivation row → List Tree
  | nil => []
  | token t text later => (if t.isKept then [.token ⟨t, text⟩] else []) ++ later.trees
  | rule r _ parts later =>
    (match r.construct? with
      | some construct => [.node construct parts.trees]
      | none => parts.trees) ++ later.trees

@[simp] theorem tokens_append (d : Derivation row) (e : Derivation next) :
    (d.append e).tokens = d.tokens ++ e.tokens := by
  induction d with
  | nil => rfl
  | token t text later ih => simp [append, tokens, ih]
  | rule r member parts later _ ih => simp [append, tokens, ih]

@[simp] theorem trees_append (d : Derivation row) (e : Derivation next) :
    (d.append e).trees = d.trees ++ e.trees := by
  induction d with
  | nil => rfl
  | token t text later ih => simp [append, trees, ih]
  | rule r member parts later _ ih => simp [append, trees, ih]

theorem exists_of_eq {row other : List Symbol} (same : row = other) (d : Derivation row) :
    ∃ e : Derivation other, e.tokens = d.tokens ∧ e.trees = d.trees := by
  subst same
  exact ⟨d, rfl, rfl⟩

end Derivation

mutual

/-- The tokens that a syntax tree shows, from left to right. -/
def Tree.tokens : Tree → List Token
  | .token t => [t]
  | .node _ children => Tree.tokensAll children

def Tree.tokensAll : List Tree → List Token
  | [] => []
  | t :: ts => t.tokens ++ Tree.tokensAll ts

end

theorem Tree.tokensAll_append (first second : List Tree) :
    Tree.tokensAll (first ++ second) = Tree.tokensAll first ++ Tree.tokensAll second := by
  induction first with
  | nil => rfl
  | cons tree rest ih => simp [Tree.tokensAll, ih]

theorem Tree.mem_tokensAll {trees : List Tree} {t : Token} :
    t ∈ Tree.tokensAll trees ↔ ∃ tree ∈ trees, t ∈ tree.tokens := by
  induction trees with
  | nil => simp [Tree.tokensAll]
  | cons tree rest ih => simp [Tree.tokensAll, ih]

mutual

/-- A syntax tree and all its parts, however deep they stand. -/
def Tree.subtrees : Tree → List Tree
  | .token t => [.token t]
  | .node c children => .node c children :: Tree.subtreesAll children

def Tree.subtreesAll : List Tree → List Tree
  | [] => []
  | t :: ts => t.subtrees ++ Tree.subtreesAll ts

end

theorem Tree.mem_subtrees_self (tree : Tree) : tree ∈ tree.subtrees := by
  cases tree <;> exact List.mem_cons_self

theorem Tree.mem_subtreesAll {trees : List Tree} {part : Tree} :
    part ∈ Tree.subtreesAll trees ↔ ∃ tree ∈ trees, part ∈ tree.subtrees := by
  induction trees with
  | nil => simp [Tree.subtreesAll]
  | cons tree rest ih => simp [Tree.subtreesAll, ih]

theorem Tree.subtreesAll_append (first second : List Tree) :
    Tree.subtreesAll (first ++ second) = Tree.subtreesAll first ++ Tree.subtreesAll second := by
  induction first with
  | nil => rfl
  | cons tree rest ih => simp [Tree.subtreesAll, ih]

/-- The trees of a derivation show exactly its kept tokens, none lost, repeated or reordered. -/
theorem Derivation.tokensAll_trees {row : List Symbol} (d : Derivation row) :
    Tree.tokensAll d.trees = d.tokens.filter (·.terminal.isKept) := by
  induction d with
  | nil => rfl
  | token t text later ih =>
    cases kept : t.isKept <;> simp [trees, tokens, kept, ih, Tree.tokensAll, Tree.tokens]
  | rule r member parts later parts_ih later_ih =>
    cases named : r.construct? <;>
      simp [trees, tokens, named, Tree.tokensAll_append, Tree.tokensAll, Tree.tokens, parts_ih,
        later_ih]

/-- The text behind the separators at its front. -/
def skip (text : List Char) : List Char := text.dropWhile isSeparator

/-- Tokens cut off a text one after another, each the one match of its terminal behind the
separators; what is left begins behind separators too. -/
inductive Cut : List Char → List Token → List Char → Prop where
  | nil {text : List Char} : Cut text [] (skip text)
  | cons {text rest : List Char} {tokens : List Token} {t : Terminal} {n : Nat}
      (found : t.match? (skip text) = some n) (later : Cut ((skip text).drop n) tokens rest) :
      Cut text (⟨t, (skip text).take n⟩ :: tokens) rest

/-- A derivation of the whole text from the start of the grammar. -/
def Derivation.Spells (d : Derivation [.nonterminal .start]) (text : List Char) : Prop :=
  Cut text d.tokens []

@[simp] theorem skip_nil : skip [] = [] := rfl

@[simp] theorem skip_skip (text : List Char) : skip (skip text) = skip text := by
  induction text with
  | nil => rfl
  | cons c rest ih =>
    by_cases separator : isSeparator c
    · simpa [skip, List.dropWhile_cons, separator] using ih
    · simp [skip, separator]

theorem length_skip (text : List Char) : (skip text).length ≤ text.length :=
  (List.dropWhile_sublist isSeparator).length_le

/-- Separators in front make no difference to what can be cut off. -/
theorem Cut.of_skip {text other rest : List Char} {tokens : List Token}
    (same : skip text = skip other) (cut : Cut text tokens rest) : Cut other tokens rest := by
  cases cut with
  | nil => rw [same]; exact .nil
  | cons found later =>
    rw [same] at found later ⊢
    exact .cons found later

theorem Cut.past_blank {text rest : List Char} {tokens : List Token}
    (cut : Cut (' ' :: text) tokens rest) : Cut text tokens rest :=
  cut.of_skip (show skip (' ' :: text) = skip text from rfl)

theorem Cut.past_comma {text rest : List Char} {tokens : List Token}
    (cut : Cut (',' :: ' ' :: text) tokens rest) : Cut text tokens rest :=
  cut.of_skip (show skip (',' :: ' ' :: text) = skip text from rfl)

theorem skip_of_cut_nil {text rest : List Char} (cut : Cut text [] rest) : skip text = rest := by
  cases cut
  rfl

theorem Cut.append {text middle rest : List Char} {first second : List Token}
    (front : Cut text first middle) (back : Cut middle second rest) :
    Cut text (first ++ second) rest := by
  induction front with
  | nil => exact back.of_skip (skip_skip _)
  | cons found later ih => exact .cons found (ih back)

theorem Cut.split {text rest : List Char} {first second : List Token}
    (cut : Cut text (first ++ second) rest) :
    ∃ middle, Cut text first middle ∧ Cut middle second rest := by
  induction first generalizing text with
  | nil => exact ⟨skip text, .nil, cut.of_skip (skip_skip _).symm⟩
  | cons token first ih =>
    cases cut with
    | cons found later =>
      obtain ⟨middle, front, back⟩ := ih later
      exact ⟨middle, .cons found front, back⟩

end SolidGeometry.Grammar
