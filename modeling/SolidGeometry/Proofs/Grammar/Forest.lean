import SolidGeometry.Proofs.Grammar.Timeline

/-! The edges of a chart as a forest: every node in it stands for a derivation of what its label
names, over the text between its offsets, and the trees taken of the node are those of the
derivation. Each child weighs less than its node, so there is no going round, and the bound on the
depth is never reached. -/
namespace SolidGeometry.Grammar

variable {text : List Char}

/-- The symbols that a label stands for. -/
def Label.row : Label → List Symbol
  | .part r dot => r.symbols.take dot
  | .whole n => [.nonterminal n]

/-- The rank of a label among those that may cover the same text: a rule comes after its parts, and
after whatever may stand at its front. -/
def Label.rank : Label → Nat
  | .part r dot => r.origin.height * 16 + dot
  | .whole n => n.height * 16 + 15

def Node.weight (n : Node) : Nat := (n.stop - n.start) * 80 + n.label.rank

theorem Item.label_of_some {i : Item} {s : Symbol} (expects : i.next? = some s) :
    i.label = .part i.rule i.dot := by
  unfold Item.label
  rw [expects]

variable {i : Item} {s : Symbol}

private theorem rank_advance (member : i.rule ∈ i.rule.origin.rules)
    (expects : i.next? = some s) :
    i.rule.origin.height * 16 + i.dot < i.advance.label.rank ∧ i.advance.label.rank < 80 := by
  have short := length_symbols_lt member
  have inside := Item.next?_lt expects
  have height := height_le i.rule.origin
  cases next : i.advance.next? with
  | none =>
    rw [Item.label_of_next? next]
    simp only [Label.rank, Item.advance]
    omega
  | some t =>
    rw [Item.label_of_some next]
    simp only [Label.rank, Item.advance]
    omega

/-- The node of an entry weighs less than the node behind its next symbol. -/
theorem Entry.Backed.weight_left {edges : List Edge} {e : Entry} {k stop : Nat} {child : Child}
    (backed : e.Backed text edges k) (expects : e.item.next? = some s) (later : k ≤ stop)
    {n : Node} (known : e.node? = some n) :
    n.weight < (e.over child stop).2.node.weight := by
  obtain ⟨_, start, label, inside, _, _⟩ := backed.node n known
  obtain ⟨higher, _⟩ := rank_advance backed.rule expects
  rw [Item.label_of_some expects] at label
  have width : n.stop - n.start ≤ stop - e.item.start := by omega
  have scaled := Nat.mul_le_mul_right 80 width
  have rank : n.label.rank = e.item.rule.origin.height * 16 + e.item.dot := by rw [label]; rfl
  change (n.stop - n.start) * 80 + n.label.rank <
    (stop - e.item.start) * 80 + e.item.advance.label.rank
  omega

/-- The node of a nonterminal weighs less than the node behind it: it covers less text, or stands at
the front of the rule. -/
theorem Entry.Backed.weight_right {edges : List Edge} {o : Entry} {m : Node} {k : Nat}
    {n : Nonterminal} (backed : o.Backed text edges m.start)
    (expects : o.item.next? = some (.nonterminal n)) (found : m.Finds text edges k n) :
    m.weight < (o.over (.node m) k).2.node.weight := by
  obtain ⟨higher, _⟩ := rank_advance backed.rule expects
  have rank : m.label.rank = n.height * 16 + 15 := by rw [found.label]; rfl
  have bound := height_le n
  have stop := found.stop
  change (m.stop - m.start) * 80 + m.label.rank <
    (k - o.item.start) * 80 + o.item.advance.label.rank
  rcases Nat.eq_zero_or_pos o.item.dot with front | inside
  · have lower := height_lt backed.rule (m := n) (by rw [← expects, Item.next?, front])
    have start := backed.start
    have scaled := Nat.mul_le_mul_right 80 (show m.stop - m.start ≤ k - o.item.start by omega)
    omega
  · have moved := backed.moved inside
    have start := found.start
    have scaled := Nat.mul_le_mul_right 80
      (show m.stop - m.start + 1 ≤ k - o.item.start by omega)
    omega

/-- The edges of all offsets, each at the offset where its node ends. -/
structure Forest (text : List Char) (edges : Array (List Edge)) : Prop where
  backed : ∀ (j : Nat) (g : Edge), g ∈ edges[j]?.getD [] →
    g.Backed text edges.toList.flatten ∧ g.node.stop = j

namespace Forest

variable {edges : Array (List Edge)} {n : Node}

theorem mem_at {g : Edge} (forest : Forest text edges) (member : g ∈ edges.toList.flatten) :
    g ∈ edges[g.node.stop]?.getD [] := by
  obtain ⟨column, listed, present⟩ := List.mem_flatten.mp member
  obtain ⟨j, bound, rfl⟩ := List.getElem_of_mem listed
  have there : g ∈ edges[j]?.getD [] := by
    rw [Array.getElem?_eq_getElem (by simpa using bound)]
    simpa using present
  rw [(forest.backed j g there).2]
  exact there

private theorem mem_flatten_of_mem {g : Edge} {j : Nat} (present : g ∈ edges[j]?.getD []) :
    g ∈ edges.toList.flatten := by
  cases found : edges[j]? with
  | none => simp [found] at present
  | some column =>
    rw [found] at present
    refine List.mem_flatten.mpr ⟨column, ?_, present⟩
    exact Array.mem_toList_iff.mpr (Array.mem_of_getElem? found)

private theorem mem_of_foldl_pick (found : List Edge) (best : Option Edge) {g : Edge}
    (picked : found.foldl (fun best e =>
      match best with
      | none => some e
      | some b => if e.rule.order < b.rule.order then some e else some b) best = some g) :
    g ∈ found ∨ best = some g := by
  induction found generalizing best with
  | nil => exact .inr picked
  | cons e rest ih =>
    rcases ih _ picked with later | first
    · exact .inl (List.mem_cons_of_mem e later)
    · cases best with
      | none =>
        cases first
        exact .inl (by simp)
      | some b =>
        dsimp only at first
        split at first
        · cases first
          exact .inl (by simp)
        · exact .inr first

private theorem isSome_foldl_pick (found : List Edge) (b : Edge) :
    (found.foldl (fun best e =>
      match best with
      | none => some e
      | some b => if e.rule.order < b.rule.order then some e else some b) (some b)).isSome := by
  induction found generalizing b with
  | nil => rfl
  | cons e rest ih =>
    rw [List.foldl_cons]
    dsimp only
    split
    · exact ih e
    · exact ih b

/-- A node that was found has an edge to take, one of its own. -/
theorem exists_pickEdge (forest : Forest text edges) (named : Named edges.toList.flatten n) :
    ∃ g, pickEdge? edges n = some g ∧ g ∈ edges.toList.flatten ∧ g.node = n := by
  obtain ⟨f, member, rfl⟩ := named
  have listed : f ∈ (edges[f.node.stop]?.getD []).filter (·.node == f.node) :=
    List.mem_filter.mpr ⟨forest.mem_at member, beq_self_eq_true _⟩
  have own : ∀ g ∈ (edges[f.node.stop]?.getD []).filter (·.node == f.node),
      g ∈ edges.toList.flatten ∧ g.node = f.node := by
    intro g present
    obtain ⟨at_stop, same⟩ := List.mem_filter.mp present
    exact ⟨mem_flatten_of_mem at_stop, beq_iff_eq.mp same⟩
  unfold pickEdge?
  dsimp only
  cases found : (edges[f.node.stop]?.getD []).filter (·.node == f.node) with
  | nil =>
    rw [found] at listed
    cases listed
  | cons e rest =>
    rw [found] at own
    cases f.node.label with
    | part => exact ⟨e, rfl, own e (by simp)⟩
    | whole =>
      dsimp only
      obtain ⟨g, picked⟩ := Option.isSome_iff_exists.mp (isSome_foldl_pick rest e)
      refine ⟨g, picked, own g ?_⟩
      rcases mem_of_foldl_pick rest (some e) picked with later | first
      · exact List.mem_cons_of_mem e later
      · cases first
        simp

/-- The trees around those of the parts of an edge. -/
def wrap (label : Label) (r : Rule) (trees : List Tree) : List Tree :=
  match label, r.construct? with
  | .whole _, some construct => [.node construct trees]
  | _, _ => trees

/-- The tree part of an edge's last symbol. -/
def childTrees (edges : Array (List Edge)) (bound : Nat) : Option Child → List Tree
  | none => []
  | some (.token t) => if t.terminal.isKept then [.token t] else []
  | some (.node m) => m.trees edges bound

theorem trees_of_pickEdge {g : Edge} (bound : Nat) (picked : pickEdge? edges n = some g) :
    n.trees edges (bound + 1) = wrap n.label g.rule
      (g.left?.elim [] (Node.trees edges bound) ++ childTrees edges bound g.right?) := by
  rw [Node.trees, picked]
  unfold wrap childTrees
  rfl

/-- A derivation of the symbols before the dot becomes one of what the item's label names. -/
private theorem exists_wrap {i : Item} (member : i.rule ∈ i.rule.origin.rules)
    (parts : Derivation (i.rule.symbols.take i.dot)) :
    ∃ d : Derivation i.label.row, d.tokens = parts.tokens ∧
      d.trees = wrap i.label i.rule parts.trees := by
  cases next : i.next? with
  | some s =>
    rw [Item.label_of_some next]
    exact ⟨parts, rfl, rfl⟩
  | none =>
    rw [Item.label_of_next? next]
    obtain ⟨whole, tokens, trees⟩ :=
      Derivation.exists_of_eq (List.take_of_length_le (Item.length_le_of_next? next)) parts
    refine ⟨.rule i.rule member whole .nil, ?_, ?_⟩
    · simp [Derivation.tokens, tokens]
    · unfold wrap
      cases named : i.rule.construct? <;> simp [Derivation.trees, named, trees]

/-- A node stands for a derivation: the text between its offsets can be cut into the tokens, and the
trees taken are those of the derivation. -/
def Derives (text : List Char) (edges : Array (List Edge)) (bound : Nat) (n : Node) : Prop :=
  ∃ d : Derivation n.label.row,
    Cut (text.drop n.start) d.tokens (skip (text.drop n.stop)) ∧ n.trees edges bound = d.trees

/-- What was found of an entry is a derivation if its node stands for one. -/
private theorem derives_left {bound k : Nat} {e : Entry}
    (backed : e.Backed text edges.toList.flatten k) (expects : e.item.next? = some s)
    (left : ∀ n, e.node? = some n → Derives text edges bound n) :
    ∃ d : Derivation (e.item.rule.symbols.take e.item.dot),
      Cut (text.drop e.item.start) d.tokens (skip (text.drop k)) ∧
      e.node?.elim [] (Node.trees edges bound) = d.trees := by
  cases known : e.node? with
  | none =>
    obtain ⟨front, same⟩ := backed.bare known
    rw [front, List.take_zero, ← same]
    exact ⟨.nil, .nil, rfl⟩
  | some n =>
    obtain ⟨_, start, label, _, behind, _⟩ := backed.node n known
    obtain ⟨d, cut, trees⟩ := left n known
    rw [Item.label_of_some expects] at label
    obtain ⟨parts, tokens, same⟩ := Derivation.exists_of_eq (congrArg Label.row label) d
    rw [start, behind, ← tokens] at cut
    exact ⟨parts, cut, trees.trans same.symm⟩

/-- An edge over the next symbol of an entry stands for a derivation if the entry and the symbol
do. -/
private theorem derives_over {bound k stop : Nat} {e : Entry} {child : Child}
    (backed : e.Backed text edges.toList.flatten k) (expects : e.item.next? = some s)
    (left : ∀ n, e.node? = some n → Derives text edges bound n)
    (right : ∃ d : Derivation [s], Cut (text.drop k) d.tokens (skip (text.drop stop)) ∧
      childTrees edges bound (some child) = d.trees)
    (picked : pickEdge? edges (e.over child stop).2.node = some (e.over child stop).2) :
    Derives text edges (bound + 1) (e.over child stop).2.node := by
  obtain ⟨front, front_cut, front_trees⟩ := derives_left backed expects left
  obtain ⟨back, back_cut, back_trees⟩ := right
  have row : e.item.rule.symbols.take e.item.dot ++ [s] =
      e.item.advance.rule.symbols.take e.item.advance.dot := by
    obtain ⟨inside, same⟩ := List.getElem?_eq_some_iff.mp expects
    rw [← same]
    exact List.take_append_getElem inside
  obtain ⟨parts, tokens, trees⟩ := Derivation.exists_of_eq row (front.append back)
  obtain ⟨d, d_tokens, d_trees⟩ :=
    exists_wrap (i := e.item.advance) backed.rule parts
  have cut : Cut (text.drop e.item.start) d.tokens (skip (text.drop stop)) := by
    rw [d_tokens, tokens, Derivation.tokens_append]
    exact front_cut.append (back_cut.of_skip (skip_skip _).symm)
  have shown : d.trees = wrap e.item.advance.label e.item.advance.rule
      (e.node?.elim [] (Node.trees edges bound) ++ childTrees edges bound (some child)) := by
    rw [d_trees, trees, Derivation.trees_append, front_trees, back_trees]
  exact ⟨d, cut, (trees_of_pickEdge bound picked).trans shown.symm⟩

private theorem countP_lt {α : Type} {p q : α → Bool} {xs : List α}
    (implies : ∀ x ∈ xs, p x = true → q x = true) {x : α} (member : x ∈ xs) (fails : p x = false)
    (holds : q x = true) : xs.countP p < xs.countP q := by
  induction xs with
  | nil => cases member
  | cons y rest ih =>
    have least := List.countP_mono_left (l := rest) (p := p) (q := q)
      fun z inside => implies z (List.mem_cons_of_mem y inside)
    rcases List.mem_cons.mp member with rfl | later
    · rw [List.countP_cons_of_pos holds, List.countP_cons_of_neg (by simp [fails])]
      omega
    · have less := ih (fun z inside => implies z (List.mem_cons_of_mem y inside)) later
      rw [List.countP_cons, List.countP_cons]
      by_cases first : p y = true
      · rw [if_pos first, if_pos (implies y (by simp) first)]
        omega
      · rw [if_neg first]
        omega

/-- How many edges belong to nodes that weigh no more than this one. -/
def lighter (edges : Array (List Edge)) (n : Node) : Nat :=
  edges.toList.flatten.countP fun g => g.node.weight ≤ n.weight

private theorem lighter_lt {m : Node} (named : Named edges.toList.flatten n)
    (less : m.weight < n.weight) : lighter edges m < lighter edges n := by
  obtain ⟨g, member, rfl⟩ := named
  refine countP_lt ?_ member (by simpa using less) (by simp)
  intro f _ light
  simp only [decide_eq_true_eq] at light ⊢
  omega

/-- An edge over nothing stands for its rule, which has no symbols. -/
private theorem derives_empty {bound start stop : Nat} {r : Rule} (listed : r ∈ r.origin.rules)
    (bare : r.symbols = []) (same : skip (text.drop start) = skip (text.drop stop))
    (picked : pickEdge? edges ⟨start, stop, .whole r.origin⟩ =
      some ⟨⟨start, stop, .whole r.origin⟩, r, none, none⟩) :
    Derives text edges (bound + 1) ⟨start, stop, .whole r.origin⟩ := by
  obtain ⟨parts, tokens, trees⟩ := Derivation.exists_of_eq bare.symm .nil
  refine ⟨.rule r listed parts .nil, ?_, ?_⟩
  · simp only [Derivation.tokens, tokens, List.append_nil]
    rw [← same]
    exact .nil
  · rw [trees_of_pickEdge bound picked]
    cases construct : r.construct? <;>
      simp [wrap, construct, childTrees, Derivation.trees, trees]

/-- A terminal that matches at an offset is cut off there. -/
private theorem cut_of_match? {t : Terminal} {i size : Nat}
    (found : t.match? (text.drop i) = some size) :
    Cut (text.drop i) [⟨t, (text.drop i).take size⟩] (skip (text.drop (i + size))) := by
  have front := skip_of_match? found
  rw [← List.drop_drop]
  have last : Cut ((skip (text.drop i)).drop size) [] (skip ((skip (text.drop i)).drop size)) :=
    .nil
  have cut := Cut.cons (t := t) (by rw [front]; exact found) last
  rw [front] at cut
  exact cut

/-- Every node that was found stands for a derivation, with a bound that leaves room for one level
for each edge of a lighter node. -/
theorem derives (forest : Forest text edges) (named : Named edges.toList.flatten n) {bound : Nat}
    (room : lighter edges n ≤ bound) : Derives text edges bound n := by
  induction bound generalizing n with
  | zero =>
    obtain ⟨g, member, rfl⟩ := named
    have counted : 0 < lighter edges g.node :=
      List.countP_pos_iff.mpr ⟨g, member, by simp⟩
    omega
  | succ bound ih =>
    have below : ∀ m, Named edges.toList.flatten m → m.weight < n.weight →
        Derives text edges bound m := by
      intro m found less
      have fewer := lighter_lt named less
      exact ih found (by omega)
    obtain ⟨g, picked, member, rfl⟩ := forest.exists_pickEdge named
    have backed := (forest.backed _ g (forest.mem_at member)).1
    cases backed with
    | empty listed bare _ same => exact derives_empty listed bare same picked
    | @token e i size t backed expects found =>
      refine derives_over backed expects (fun n known => below n ?_ ?_)
        ⟨.token t ((text.drop i).take size) .nil, cut_of_match? found, ?_⟩ picked
      · exact (backed.node n known).2.2.2.2.2
      · exact backed.weight_left expects (Nat.le_add_right i size) known
      · simp [childTrees, Derivation.trees]
    | @node o m k n backed expects found =>
      refine derives_over backed expects (fun n known => below n ?_ ?_) ?_ picked
      · exact (backed.node n known).2.2.2.2.2
      · exact backed.weight_left expects found.start known
      · obtain ⟨d, cut, trees⟩ := below m found.named (backed.weight_right expects found)
        obtain ⟨parts, tokens, same⟩ := Derivation.exists_of_eq (congrArg Label.row found.label) d
        rw [← tokens, found.behind] at cut
        exact ⟨parts, cut, trees.trans same.symm⟩

end Forest

end SolidGeometry.Grammar
