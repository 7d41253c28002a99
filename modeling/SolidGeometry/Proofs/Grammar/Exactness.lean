import SolidGeometry.Proofs.Grammar.Completeness
import SolidGeometry.Proofs.Grammar.Forest

namespace SolidGeometry.Grammar

variable {text : List Char}

private theorem allEdges_eq (c : Chart) : (c.edges.push c.fresh).toList.flatten = c.allEdges := by
  simp [Chart.allEdges, Chart.before]

/-- The edges of a backed chart form a forest. -/
theorem Chart.Backed.forest {k : Nat} {c : Chart} (backed : c.Backed text k) :
    Forest text (c.edges.push c.fresh) where
  backed j g member := by
    rw [allEdges_eq]
    rw [Array.getElem?_push] at member
    split at member
    · rename_i last
      rw [last, backed.edgesSize]
      exact backed.fresh g member
    · exact backed.edges j g member

/-- The bound on the depth of a tree leaves room for every node. -/
private theorem lighter_le (edges : Array (List Edge)) (n : Node) :
    Forest.lighter edges n ≤ edges.foldl (fun n column => n + column.length) 1 := by
  have total : ∀ (columns : List (List Edge)) (m : Nat),
      columns.foldl (fun n column => n + column.length) m = m + columns.flatten.length := by
    intro columns
    induction columns with
    | nil => exact fun _ => rfl
    | cons column rest ih =>
      intro m
      rw [List.foldl_cons, ih, List.flatten_cons, List.length_append, Nat.add_assoc]
  rw [← Array.foldl_toList, total]
  exact Nat.le_trans List.countP_le_length (Nat.le_add_left _ _)

/-- A whole reading at the end of a text is taken from a derivation. -/
theorem exists_derivation_of_isReading {e : Entry}
    (member : e ∈ (closed text text.length).column) (reading : e.isReading = true) :
    ∃ n, e.node? = some n ∧ ∃ d : Derivation [.nonterminal .start], d.Spells text ∧
      n.trees ((closed text text.length).edges.push (closed text text.length).fresh)
        (((closed text text.length).edges.push (closed text text.length).fresh).foldl
          (fun n column => n + column.length) 1) = d.trees := by
  have chart := closed_backed text text.length
  have backed := chart.column e member
  simp only [Entry.isReading, Bool.and_eq_true, beq_iff_eq] at reading
  obtain ⟨⟨origin, first⟩, finished⟩ := reading
  have moved : 0 < e.item.dot := by
    have length := Item.length_le_of_next? finished
    have one := length_symbols_start (origin ▸ backed.rule)
    omega
  cases known : e.node? with
  | none =>
    have none := (backed.bare known).1
    omega
  | some n =>
    obtain ⟨_, start, label, _, behind, named⟩ := backed.node n known
    rw [Item.label_of_next? finished, origin] at label
    rw [← allEdges_eq] at named
    obtain ⟨whole, cut, trees⟩ := chart.forest.derives named (lighter_le _ n)
    rw [start, first, behind, List.drop_length] at cut
    obtain ⟨d, tokens, same⟩ := Derivation.exists_of_eq (congrArg Label.row label) whole
    rw [← tokens] at cut
    exact ⟨n, rfl, d, cut, trees.trans same.symm⟩

/-- A text is read as the tree of a derivation of it, or has no derivation and is not read. -/
theorem readTrimmed_cases (text : List Char) :
    (∃ (d : Derivation [.nonterminal .start]) (tree : Tree),
      d.Spells text ∧ d.trees = [tree] ∧ readTrimmed text = .ok tree) ∨
    (∀ d : Derivation [.nonterminal .start], ¬ d.Spells text) ∧
      ∃ e, readTrimmed text = .error e := by
  have spelled : ∀ d : Derivation [.nonterminal .start], d.Spells text →
      ∃ e ∈ (closed text text.length).column, e.isReading = true :=
    fun d spells => spells.exists_reading
  unfold readTrimmed
  rcases advance_eq text with advanced | ⟨⟨offset, stuck⟩, empty⟩
  · rw [advanced]
    cases first : (closed text text.length).column.find? Entry.isReading with
    | none =>
      right
      refine ⟨fun d spells => ?_, ?_⟩
      · obtain ⟨e, member, reading⟩ := spelled d spells
        exact List.find?_eq_none.mp first e member reading
      · simp [Chart.reading?, first]
    | some e =>
      left
      have member := List.mem_of_find?_eq_some first
      obtain ⟨n, known, d, spells, trees⟩ :=
        exists_derivation_of_isReading member (List.find?_some first)
      obtain ⟨tree, single⟩ := d.exists_tree
      rw [single] at trees
      have taken : (closed text text.length).reading? = some [tree] := by
        unfold Chart.reading?
        rw [first]
        simp only [Option.bind_eq_bind, Option.bind_some, known]
        exact congrArg some trees
      exact ⟨d, tree, spells, single, by simp only [taken]⟩
  · right
    rw [stuck]
    refine ⟨fun d spells => ?_, ⟨_, rfl⟩⟩
    obtain ⟨e, member, _⟩ := spelled d spells
    rw [empty] at member
    cases member

/-- What is read is the tree of a derivation, with all its kept tokens in their order. -/
theorem exists_derivation_of_read {text : String} {tree : Tree} (found : read text = .ok tree) :
    ∃ d : Derivation [.nonterminal .start], d.Spells (Text.trim text.toList) ∧
      d.trees = [tree] ∧ tree.tokens = d.tokens.filter (·.terminal.isKept) := by
  unfold read at found
  rcases readTrimmed_cases (Text.trim text.toList) with
    ⟨d, other, spells, single, taken⟩ | ⟨_, e, failed⟩
  · cases taken.symm.trans found
    refine ⟨d, spells, single, ?_⟩
    have shown := d.tokensAll_trees
    rw [single] at shown
    simpa [Tree.tokensAll] using shown
  · cases failed.symm.trans found

/-- The reader accepts exactly the texts that the grammar derives, and the tree of a text is that of
one of its derivations, with all its kept tokens in their order. -/
theorem read_exact (text : String) :
    match read text with
    | .ok tree => ∃ d : Derivation [.nonterminal .start], d.Spells (Text.trim text.toList) ∧
        d.trees = [tree] ∧ tree.tokens = d.tokens.filter (·.terminal.isKept)
    | .error _ =>
        ∀ d : Derivation [.nonterminal .start], ¬ d.Spells (Text.trim text.toList) := by
  cases outcome : read text with
  | ok tree => exact exists_derivation_of_read outcome
  | error cause =>
    unfold read at outcome
    rcases readTrimmed_cases (Text.trim text.toList) with ⟨_, _, _, _, found⟩ | ⟨none, _⟩
    · cases found.symm.trans outcome
    · exact none

end SolidGeometry.Grammar
