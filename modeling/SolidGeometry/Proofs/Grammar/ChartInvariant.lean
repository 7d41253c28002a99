import SolidGeometry.Proofs.Grammar.Provenance

namespace SolidGeometry.Grammar

variable {text : List Char} {k : Nat} {c : Chart}

/-- The edges before the offset of a chart. -/
def Chart.before (c : Chart) : List Edge := c.edges.toList.flatten

def Chart.allEdges (c : Chart) : List Edge := c.before ++ c.fresh

/-- An entry on its way to a later offset. -/
inductive Pending.Backed (text : List Char) (edges : List Edge) : Pending → Prop where
  | carried {stop : Nat} {e : Entry} (backed : e.Backed text edges stop) :
      Backed text edges ⟨stop, e, none⟩
  | token {e : Entry} {i n : Nat} {t : Terminal} (backed : e.Backed text edges i)
      (expects : e.item.next? = some (.terminal t)) (found : t.match? (text.drop i) = some n) :
      Backed text edges ⟨i + n, e, some ⟨t, (text.drop i).take n⟩⟩

theorem Pending.Backed.mono {edges more : List Edge} {p : Pending}
    (subset : ∀ g ∈ edges, g ∈ more) (backed : p.Backed text edges) : p.Backed text more := by
  cases backed with
  | carried backed => exact .carried (backed.mono subset)
  | token backed expects found => exact .token (backed.mono subset) expects found

/-- All that a chart holds at an offset is backed. -/
structure Chart.Backed (text : List Char) (k : Nat) (c : Chart) : Prop where
  columnsSize : c.columns.size = k
  edgesSize : c.edges.size = k
  columns : ∀ (j : Nat) (o : Entry), o ∈ c.columns[j]?.getD [] → o.Backed text c.before j
  edges : ∀ (j : Nat) (g : Edge), g ∈ c.edges[j]?.getD [] →
    g.Backed text c.allEdges ∧ g.node.stop = j
  column : ∀ e ∈ c.column, e.Backed text c.allEdges k
  scan : ∀ e ∈ c.scan, e.Backed text c.allEdges k
  fresh : ∀ g ∈ c.fresh, g.Backed text c.allEdges ∧ g.node.stop = k
  pending : ∀ p ∈ c.pending, p.Backed text c.allEdges

/-- The items that are possible up to an offset. -/
def possible (k : Nat) : List Item :=
  (List.range (k + 1)).flatMap fun start =>
    (Nonterminal.all.flatMap Nonterminal.rules).flatMap fun r =>
      (List.range (r.symbols.length + 1)).map fun dot => ⟨start, dot, r⟩

theorem length_possible (k : Nat) : (possible k).length = dotCount * (k + 1) := by
  have counted : dotCount = ((Nonterminal.all.flatMap Nonterminal.rules).map fun r =>
      r.symbols.length + 1).sum := by decide +kernel
  simp only [possible, List.length_flatMap, List.length_map, List.length_range]
  rw [List.map_const', List.sum_replicate_nat, List.length_range, counted, Nat.mul_comm]

theorem Entry.Backed.possible {edges : List Edge} {e : Entry} (backed : e.Backed text edges k) :
    e.item ∈ possible k := by
  refine List.mem_flatMap.mpr ⟨e.item.start, ?_, List.mem_flatMap.mpr ⟨e.item.rule, ?_, ?_⟩⟩
  · exact List.mem_range.mpr (Nat.lt_succ_of_le backed.start)
  · exact List.mem_flatMap.mpr ⟨_, mem_all _, backed.rule⟩
  · exact List.mem_map.mpr ⟨e.item.dot, List.mem_range.mpr (Nat.lt_succ_of_le backed.dot), rfl⟩

/-- Backed entries with different items are no more than the bound on the work allows. -/
theorem Work.Backed.length_column {before : List Edge} {w : Work} (backed : w.Backed text before k)
    (distinct : (w.column.map Entry.item).Nodup) : w.column.length ≤ dotCount * (k + 1) := by
  have subset : w.column.map Entry.item ⊆ possible k := by
    intro i member
    obtain ⟨e, present, rfl⟩ := List.mem_map.mp member
    exact (backed.column e present).possible
  simpa [length_possible] using distinct.length_le_of_subset subset

/-- The work with which the closing of a chart begins. -/
def Chart.opening (c : Chart) : Work := ⟨c.column, c.scan, c.fresh, c.column.reverse, []⟩

/-- The work with which the closing of a chart ends. -/
def Chart.closing (c : Chart) : Work :=
  c.opening.run c.columns c.offset (dotCount * (c.offset + 1) + c.column.length)

theorem Chart.close_eq (c : Chart) :
    c.close = { c with
      column := c.closing.column
      scan := c.closing.scan
      fresh := c.closing.edges } := rfl

/-- Work that knows at least the entries and edges of a chart, and nothing unbacked. -/
structure Work.Continues (text : List Char) (k : Nat) (c : Chart) (w : Work) : Prop where
  backed : w.Backed text c.before k
  column : ∀ e ∈ c.column, e ∈ w.column
  scan : ∀ e ∈ c.scan, e ∈ w.scan
  edges : ∀ g ∈ c.fresh, g ∈ w.edges

private theorem Chart.Backed.kept (backed : c.Backed text k) :
    Work.Kept c.columns k (Work.Continues text k c) where
  take w agenda _ holds := ⟨⟨holds.backed.column, holds.backed.scan, holds.backed.held,
    holds.backed.edges⟩, holds.column, holds.scan, holds.edges⟩
  change w v change holds := by
    have extension := change.extends
    exact ⟨holds.backed.change backed.columns change,
      fun e member => extension.column e (holds.column e member),
      fun e member => extension.scan e (holds.scan e member),
      fun g member => extension.edges g (holds.edges g member)⟩

theorem Chart.Backed.closing (backed : c.Backed text k)
    (distinct : (c.column.map Entry.item).Nodup) :
    c.closing.agenda = [] ∧ c.closing.Continues text k c ∧ c.closing.Settled c.columns k := by
  have offset : c.offset = k := backed.columnsSize
  have orderly : c.opening.Orderly := ⟨fun e member => List.mem_reverse.mp member, distinct⟩
  have start : c.opening.Continues text k c :=
    ⟨⟨backed.column, backed.scan, by simp [opening], backed.fresh⟩, fun _ member => member,
      fun _ member => member, fun _ member => member⟩
  have waiting : c.opening.Settled c.columns k := fun e member => .inl (List.mem_reverse.mpr member)
  have limited : ∀ w : Work, w.Continues text k c → w.Orderly →
      w.column.length ≤ dotCount * (k + 1) :=
    fun w holds orderly => holds.backed.length_column orderly.distinct
  unfold Chart.closing
  rw [offset]
  refine Work.run_spec backed.kept limited _ orderly start waiting ?_
  · simp only [opening, List.length_reverse]
    omega

theorem Chart.Backed.close (backed : c.Backed text k)
    (distinct : (c.column.map Entry.item).Nodup) : c.close.Backed text k := by
  obtain ⟨_, ended, _⟩ := backed.closing distinct
  have subset : ∀ g ∈ c.allEdges, g ∈ c.close.allEdges := by
    intro g member
    rcases List.mem_append.mp member with old | recent
    · exact List.mem_append_left _ old
    · exact List.mem_append_right _ (ended.edges g recent)
  exact {
    columnsSize := backed.columnsSize
    edgesSize := backed.edgesSize
    columns := backed.columns
    edges := fun j g member =>
      ⟨(backed.edges j g member).1.mono subset, (backed.edges j g member).2⟩
    column := ended.backed.column
    scan := ended.backed.scan
    fresh := ended.backed.edges
    pending := fun p member => (backed.pending p member).mono subset }

end SolidGeometry.Grammar
