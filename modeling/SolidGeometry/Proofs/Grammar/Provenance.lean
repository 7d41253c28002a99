import SolidGeometry.Proofs.Grammar.Closure

/-! Where entries and edges come from. An entry is backed at an offset if its node covers the text
from its start up to separators before the offset; an edge is backed if it joins a backed entry with
a token of the text or with a found nonterminal. All work at an offset keeps this. -/
namespace SolidGeometry.Grammar

variable {text : List Char} {edges more : List Edge} {k : Nat}

/-- An entry with a node has found at least one character, an entry without one none at all. -/
structure Entry.Backed (text : List Char) (edges : List Edge) (k : Nat) (e : Entry) : Prop where
  rule : e.item.rule ∈ e.item.rule.origin.rules
  dot : e.item.dot ≤ e.item.rule.symbols.length
  start : e.item.start ≤ k
  moved : 0 < e.item.dot → e.item.start < k
  bare : e.node? = none → e.item.dot = 0 ∧ skip (text.drop e.item.start) = skip (text.drop k)
  node : ∀ n, e.node? = some n → 0 < e.item.dot ∧ n.start = e.item.start ∧ n.label = e.item.label ∧
    n.stop ≤ k ∧ skip (text.drop n.stop) = skip (text.drop k) ∧ Named edges n

/-- A node under which a whole nonterminal was found before an offset. -/
structure Node.Finds (text : List Char) (edges : List Edge) (k : Nat) (n : Nonterminal)
    (m : Node) : Prop where
  label : m.label = .whole n
  start : m.start ≤ k
  stop : m.stop ≤ k
  moved : m.start < k ∨ n = .link
  behind : skip (text.drop m.stop) = skip (text.drop k)
  named : Named edges m

inductive Edge.Backed (text : List Char) (edges : List Edge) : Edge → Prop where
  | empty {start stop : Nat} {r : Rule} (member : r ∈ r.origin.rules) (bare : r.symbols = [])
      (order : start ≤ stop) (same : skip (text.drop start) = skip (text.drop stop)) :
      Backed text edges ⟨⟨start, stop, .whole r.origin⟩, r, none, none⟩
  | token {e : Entry} {i n : Nat} {t : Terminal} (backed : e.Backed text edges i)
      (expects : e.item.next? = some (.terminal t)) (found : t.match? (text.drop i) = some n) :
      Backed text edges (e.over (.token ⟨t, (text.drop i).take n⟩) (i + n)).2
  | node {o : Entry} {m : Node} {k : Nat} {n : Nonterminal} (backed : o.Backed text edges m.start)
      (expects : o.item.next? = some (.nonterminal n)) (found : m.Finds text edges k n) :
      Backed text edges (o.over (.node m) k).2

theorem Entry.Backed.mono {e : Entry} (subset : ∀ g ∈ edges, g ∈ more)
    (backed : e.Backed text edges k) : e.Backed text more k :=
  { backed with
    node := fun n same =>
      have ⟨dot, start, label, stop, behind, named⟩ := backed.node n same
      ⟨dot, start, label, stop, behind, named.mono subset⟩ }

theorem Node.Finds.mono {m : Node} {n : Nonterminal} (subset : ∀ g ∈ edges, g ∈ more)
    (found : m.Finds text edges k n) : m.Finds text more k n :=
  { found with named := found.named.mono subset }

theorem Edge.Backed.mono {g : Edge} (subset : ∀ g ∈ edges, g ∈ more)
    (backed : g.Backed text edges) : g.Backed text more := by
  cases backed with
  | empty member bare order same => exact .empty member bare order same
  | token backed expects found => exact .token (backed.mono subset) expects found
  | node backed expects found => exact .node (backed.mono subset) expects (found.mono subset)

theorem Entry.Backed.predicted {n : Nonterminal} {r : Rule} (member : r ∈ n.predictions) :
    (⟨⟨k, 0, r⟩, none⟩ : Entry).Backed text edges k where
  rule := mem_rules_of_mem_predictions member
  dot := Nat.zero_le _
  start := Nat.le_refl _
  moved positive := absurd positive (Nat.lt_irrefl 0)
  bare _ := ⟨rfl, rfl⟩
  node _ absurd := by cases absurd

/-- Separators between two offsets make no difference to an entry. -/
theorem Entry.Backed.carry {e : Entry} {stop : Nat} (backed : e.Backed text edges k)
    (later : k ≤ stop) (same : skip (text.drop k) = skip (text.drop stop)) :
    e.Backed text edges stop where
  rule := backed.rule
  dot := backed.dot
  start := Nat.le_trans backed.start later
  moved positive := Nat.lt_of_lt_of_le (backed.moved positive) later
  bare none := ⟨(backed.bare none).1, (backed.bare none).2.trans same⟩
  node n some :=
    have ⟨dot, start, label, stop, behind, named⟩ := backed.node n some
    ⟨dot, start, label, Nat.le_trans stop later, behind.trans same, named⟩

theorem Item.next?_lt {i : Item} {s : Symbol} (expects : i.next? = some s) :
    i.dot < i.rule.symbols.length :=
  (List.getElem?_eq_some_iff.mp expects).1

theorem Item.length_le_of_next? {i : Item} (finished : i.next? = none) :
    i.rule.symbols.length ≤ i.dot :=
  List.getElem?_eq_none_iff.mp finished

theorem Item.label_of_next? {i : Item} (finished : i.next? = none) :
    i.label = .whole i.rule.origin := by
  unfold Item.label
  rw [finished]

/-- The entry behind a token is backed where the token ends. -/
theorem Entry.Backed.overToken {e : Entry} {n : Nat} {t : Terminal} (backed : e.Backed text edges k)
    (expects : e.item.next? = some (.terminal t)) (positive : 0 < n) (token : Token)
    (named : Named edges (e.over (.token token) (k + n)).2.node) :
    (e.over (.token token) (k + n)).1.Backed text edges (k + n) where
  rule := backed.rule
  dot := Item.next?_lt expects
  start := Nat.le_trans backed.start (Nat.le_add_right k n)
  moved _ := Nat.lt_of_le_of_lt backed.start (Nat.lt_add_of_pos_right positive)
  bare absurd := by cases absurd
  node m some := by
    cases some
    exact ⟨Nat.succ_pos _, rfl, rfl, Nat.le_refl _, rfl, named⟩

/-- The entry behind a nonterminal is backed where that is found. A link may be empty, but never
stands first. -/
theorem Entry.Backed.overNode {o : Entry} {m : Node} {n : Nonterminal}
    (backed : o.Backed text edges m.start) (expects : o.item.next? = some (.nonterminal n))
    (found : m.Finds text edges k n) (named : Named edges (o.over (.node m) k).2.node) :
    (o.over (.node m) k).1.Backed text edges k where
  rule := backed.rule
  dot := Item.next?_lt expects
  start := Nat.le_trans backed.start found.start
  moved _ := by
    rcases found.moved with moved | rfl
    · exact Nat.lt_of_le_of_lt backed.start moved
    · have inside : 0 < o.item.dot := by
        refine Nat.pos_of_ne_zero fun zero => front_ne_link backed.rule ?_
        rw [← expects, Item.next?, zero]
      exact Nat.lt_of_lt_of_le (backed.moved inside) found.start
  bare absurd := by cases absurd
  node m some := by
    cases some
    exact ⟨Nat.succ_pos _, rfl, rfl, Nat.le_refl _, rfl, named⟩

/-- The node of a finished entry finds the nonterminal of its rule. -/
theorem Entry.Backed.finds {e : Entry} (backed : e.Backed text edges k)
    (finished : e.item.next? = none) (named : e.node? = none → Named edges (e.nodeAt k)) :
    (e.nodeAt k).Finds text edges k e.item.rule.origin ∧ (e.nodeAt k).start = e.item.start := by
  cases node : e.node? with
  | none =>
    obtain ⟨dot, same⟩ := backed.bare node
    have empty : e.item.rule.symbols = [] := by
      have length := Item.length_le_of_next? finished
      exact List.length_eq_zero_iff.mp (by omega)
    have link := eq_link_of_symbols_nil backed.rule empty
    have shape : e.nodeAt k = ⟨e.item.start, k, .whole e.item.rule.origin⟩ := by
      simp [Entry.nodeAt, node]
    rw [shape] at named ⊢
    exact ⟨⟨rfl, backed.start, Nat.le_refl _, .inr link, rfl, named node⟩, rfl⟩
  | some m =>
    obtain ⟨dot, start, label, stop, behind, found⟩ := backed.node m node
    have shape : e.nodeAt k = m := by simp [Entry.nodeAt, node]
    rw [shape]
    rw [Item.label_of_next? finished] at label
    have moved := backed.moved dot
    exact ⟨⟨label, start ▸ backed.start, stop, .inl (start ▸ moved), behind, found⟩, start⟩

/-- All that the work at an offset has noted is backed, by its own edges and earlier ones. -/
structure Work.Backed (text : List Char) (before : List Edge) (k : Nat) (w : Work) : Prop where
  column : ∀ e ∈ w.column, e.Backed text (before ++ w.edges) k
  scan : ∀ e ∈ w.scan, e.Backed text (before ++ w.edges) k
  held : ∀ n m, (n, m) ∈ w.held → m.Finds text (before ++ w.edges) k n ∧ m.start = k
  edges : ∀ g ∈ w.edges, g.Backed text (before ++ w.edges) ∧ g.node.stop = k

namespace Work.Backed

variable {before : List Edge} {w : Work}

theorem add {e : Entry} (backed : w.Backed text before k)
    (new : e.Backed text (before ++ w.edges) k) : (w.add e).Backed text before k := by
  unfold Work.add
  split
  · refine { backed with scan := ?_ }
    intro d member
    rcases mem_addEntry member with old | rfl
    · exact backed.scan d old
    · exact new
  · split
    · exact backed
    · refine { backed with column := ?_ }
      intro d member
      rcases List.mem_append.mp member with old | single
      · exact backed.column d old
      · obtain rfl := List.mem_singleton.mp single
        exact new

theorem addEdge {g : Edge} (backed : w.Backed text before k)
    (new : g.Backed text (before ++ w.edges)) (stop : g.node.stop = k) :
    ({ w with edges := Grammar.addEdge w.edges g } : Work).Backed text before k := by
  have subset : ∀ f ∈ before ++ w.edges, f ∈ before ++ Grammar.addEdge w.edges g := by
    intro f member
    rcases List.mem_append.mp member with old | recent
    · exact List.mem_append_left _ old
    · exact List.mem_append_right _ (mem_addEdge_of_mem g recent)
  refine ⟨fun e member => (backed.column e member).mono subset,
    fun e member => (backed.scan e member).mono subset, ?_, ?_⟩
  · intro n m member
    exact ⟨(backed.held n m member).1.mono subset, (backed.held n m member).2⟩
  · intro f member
    rcases mem_addEdge member with old | rfl
    · exact ⟨(backed.edges f old).1.mono subset, (backed.edges f old).2⟩
    · exact ⟨new.mono subset, stop⟩

theorem addOver {o : Entry} {m : Node} {n : Nonterminal} (backed : w.Backed text before k)
    (base : o.Backed text (before ++ w.edges) m.start)
    (expects : o.item.next? = some (.nonterminal n))
    (found : m.Finds text (before ++ w.edges) k n) : (w.addOver o m k).Backed text before k := by
  have recorded := backed.addEdge (.node base expects found) rfl
  have subset : ∀ f ∈ before ++ w.edges,
      f ∈ before ++ Grammar.addEdge w.edges (o.over (.node m) k).2 := by
    intro f member
    rcases List.mem_append.mp member with old | recent
    · exact List.mem_append_left _ old
    · exact List.mem_append_right _ (mem_addEdge_of_mem _ recent)
  refine recorded.add (.overNode (base.mono subset) expects (found.mono subset) ?_)
  exact (named_addEdge _ _).mono fun f member => List.mem_append_right _ member

theorem change {earlier : Array (List Entry)} {v : Work}
    (history : ∀ (j : Nat) (o : Entry), o ∈ earlier[j]?.getD [] → o.Backed text before j)
    (change : Work.Change earlier k w v) (backed : w.Backed text before k) :
    v.Backed text before k := by
  have widen : ∀ f ∈ before, f ∈ before ++ w.edges := fun f member => List.mem_append_left _ member
  have recent : ∀ f ∈ w.edges, f ∈ before ++ w.edges := fun f member =>
    List.mem_append_right _ member
  cases change with
  | predict known expects member => exact backed.add (.predicted member)
  | @empty e known finished bare =>
    obtain ⟨dot, same⟩ := (backed.column e known).bare bare
    have none : e.item.rule.symbols = [] := by
      have length := Item.length_le_of_next? finished
      exact List.length_eq_zero_iff.mp (by omega)
    have shape : e.nodeAt k = ⟨e.item.start, k, .whole e.item.rule.origin⟩ := by
      simp [Entry.nodeAt, bare]
    rw [shape]
    have known := backed.column e known
    exact backed.addEdge (.empty known.rule none known.start same) rfl
  | @hold e known finished here named =>
    obtain ⟨found, start⟩ := (backed.column e known).finds finished
      fun bare => (named bare).mono recent
    refine { backed with held := ?_ }
    intro n m member
    rcases List.mem_cons.mp member with same | old
    · cases same
      exact ⟨found, start.trans here⟩
    · exact backed.held n m old
  | @complete e o known finished named waiting expects =>
    obtain ⟨found, start⟩ := (backed.column e known).finds finished
      fun bare => (named bare).mono recent
    refine backed.addOver ?_ expects found
    rw [start]
    unfold Work.entriesAt at waiting
    split at waiting
    · rename_i here
      rw [here]
      exact backed.column o waiting
    · exact (history _ o waiting).mono widen
  | @resume o n m known expects held =>
    obtain ⟨found, start⟩ := backed.held n m held
    refine backed.addOver ?_ expects found
    rw [start]
    exact backed.column o known

end Work.Backed

end SolidGeometry.Grammar
