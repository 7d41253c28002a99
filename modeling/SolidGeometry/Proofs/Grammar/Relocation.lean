import SolidGeometry.Proofs.Grammar.Agenda

/-! Charts under a change of offsets. The work at an offset compares offsets with each other and
does nothing else with them, so it commutes with every injective change, and so does the choice of
a tree. -/
namespace SolidGeometry.Grammar

section

variable (f : Nat → Nat)

def Item.relocate (i : Item) : Item := { i with start := f i.start }

def Node.relocate (n : Node) : Node := { n with start := f n.start, stop := f n.stop }

def Child.relocate : Child → Child
  | .token t => .token t
  | .node n => .node (n.relocate f)

def Edge.relocate (g : Edge) : Edge where
  node := g.node.relocate f
  rule := g.rule
  left? := g.left?.map (Node.relocate f)
  right? := g.right?.map (Child.relocate f)

def Entry.relocate (e : Entry) : Entry := ⟨e.item.relocate f, e.node?.map (Node.relocate f)⟩

def Pending.relocate (p : Pending) : Pending := { p with stop := f p.stop, entry := p.entry.relocate f }

def Work.relocate (w : Work) : Work where
  column := w.column.map (Entry.relocate f)
  scan := w.scan.map (Entry.relocate f)
  edges := w.edges.map (Edge.relocate f)
  agenda := w.agenda.map (Entry.relocate f)
  held := w.held.map (Prod.map id (Node.relocate f))

/-- At the changed offsets the second array holds what the first one holds, changed likewise. -/
def Matches {α : Type} (change : α → α) (before after : Array (List α)) : Prop :=
  ∀ j, after[f j]?.getD [] = (before[j]?.getD []).map change

end

variable {f : Nat → Nat}

@[simp] theorem Entry.next?_relocate (e : Entry) : (e.relocate f).item.next? = e.item.next? := rfl

@[simp] theorem Entry.rule_relocate (e : Entry) : (e.relocate f).item.rule = e.item.rule := rfl

@[simp] theorem Entry.start_relocate (e : Entry) :
    (e.relocate f).item.start = f e.item.start := rfl

@[simp] theorem Entry.expectsToken_relocate (e : Entry) :
    (e.relocate f).expectsToken = e.expectsToken := rfl

@[simp] theorem Entry.item_relocate (e : Entry) : (e.relocate f).item = e.item.relocate f := rfl

@[simp] theorem Edge.node_relocate (g : Edge) : (g.relocate f).node = g.node.relocate f := rfl

section

variable (injective : Function.Injective f)

include injective

theorem Item.relocate_inj {i j : Item} : i.relocate f = j.relocate f ↔ i = j := by
  constructor
  · intro same
    obtain ⟨start, dot, rule⟩ := i
    obtain ⟨start', dot', rule'⟩ := j
    simp only [Item.relocate, Item.mk.injEq] at same ⊢
    exact ⟨injective same.1, same.2⟩
  · exact congrArg _

theorem Node.relocate_inj {n m : Node} : n.relocate f = m.relocate f ↔ n = m := by
  constructor
  · intro same
    obtain ⟨start, stop, label⟩ := n
    obtain ⟨start', stop', label'⟩ := m
    simp only [Node.relocate, Node.mk.injEq] at same ⊢
    exact ⟨injective same.1, injective same.2.1, same.2.2⟩
  · exact congrArg _

theorem Child.relocate_injective : Function.Injective (Child.relocate f) := by
  intro a b same
  cases a with
  | token t =>
    cases b with
    | token u => exact same
    | node m => cases same
  | node n =>
    cases b with
    | token u => cases same
    | node m => exact congrArg _ ((Node.relocate_inj injective).mp (Child.node.inj same))

theorem any_item_relocate (entries : List Entry) (e : Entry) :
    (entries.map (Entry.relocate f)).any (·.item == (e.relocate f).item) =
      entries.any (·.item == e.item) := by
  rw [List.any_map]
  congr 1
  funext d
  refine Bool.eq_iff_iff.mpr ?_
  simpa using Item.relocate_inj injective

theorem addEntry_relocate (entries : List Entry) (e : Entry) :
    addEntry (entries.map (Entry.relocate f)) (e.relocate f) =
      (addEntry entries e).map (Entry.relocate f) := by
  unfold addEntry
  rw [any_item_relocate injective]
  split
  · rfl
  · rw [List.map_append, List.map_singleton]

theorem addEdge_relocate (edges : List Edge) (g : Edge) :
    addEdge (edges.map (Edge.relocate f)) (g.relocate f) =
      (addEdge edges g).map (Edge.relocate f) := by
  have nodes : Function.Injective (Node.relocate f) :=
    fun n m same => (Node.relocate_inj injective).mp same
  have left := Option.map_injective nodes
  have right := Option.map_injective (Child.relocate_injective injective)
  have present : (edges.map (Edge.relocate f)).any (fun d => d.node == (g.relocate f).node &&
        d.left? == (g.relocate f).left? && d.right? == (g.relocate f).right?) =
      edges.any fun d => d.node == g.node && d.left? == g.left? && d.right? == g.right? := by
    rw [List.any_map]
    congr 1
    funext d
    refine Bool.eq_iff_iff.mpr ?_
    simp only [Function.comp_apply, Bool.and_eq_true, beq_iff_eq, Edge.relocate, nodes.eq_iff,
      left.eq_iff, right.eq_iff]
  unfold addEdge
  rw [present]
  split
  · rfl
  · rw [List.map_append, List.map_singleton]

namespace Work

theorem add_relocate (w : Work) (e : Entry) :
    (w.relocate f).add (e.relocate f) = (w.add e).relocate f := by
  unfold add
  rw [Entry.expectsToken_relocate]
  split
  · simp only [relocate, addEntry_relocate injective]
  · rw [show (w.relocate f).column = w.column.map (Entry.relocate f) from rfl,
      any_item_relocate injective]
    split
    · rfl
    · simp [relocate]

theorem addOver_relocate (w : Work) (e : Entry) (n : Node) (offset : Nat) :
    (w.relocate f).addOver (e.relocate f) (n.relocate f) (f offset) =
      (w.addOver e n offset).relocate f := by
  have recorded := addEdge_relocate injective w.edges (e.over (.node n) offset).2
  have added := add_relocate injective
    { w with edges := addEdge w.edges (e.over (.node n) offset).2 } (e.over (.node n) offset).1
  unfold addOver
  rw [← added]
  simp only [relocate, ← recorded]
  rfl

theorem foldl_add_relocate (w : Work) (rules : List Rule) (offset : Nat) :
    rules.foldl (fun w r => w.add ⟨⟨f offset, 0, r⟩, none⟩) (w.relocate f) =
      (rules.foldl (fun w r => w.add ⟨⟨offset, 0, r⟩, none⟩) w).relocate f := by
  induction rules generalizing w with
  | nil => rfl
  | cons r rest ih =>
    rw [List.foldl_cons, List.foldl_cons, ← ih]
    congr 1
    exact add_relocate injective w ⟨⟨offset, 0, r⟩, none⟩

theorem foldl_addOver_relocate (w : Work) (os : List Entry) (n : Node) (offset : Nat) :
    (os.map (Entry.relocate f)).foldl (fun w o => w.addOver o (n.relocate f) (f offset))
        (w.relocate f) =
      (os.foldl (fun w o => w.addOver o n offset) w).relocate f := by
  induction os generalizing w with
  | nil => rfl
  | cons o rest ih =>
    rw [List.map_cons, List.foldl_cons, List.foldl_cons, ← ih]
    congr 1
    exact addOver_relocate injective w o n offset

omit injective in
theorem expecting_relocate (column : List Entry) (n : Nonterminal) :
    expecting (column.map (Entry.relocate f)) n = (expecting column n).map (Entry.relocate f) := by
  unfold expecting
  rw [List.filter_map]
  rfl

omit injective in
theorem nodeAt_relocate (e : Entry) (offset : Nat) :
    (e.relocate f).nodeAt (f offset) = (e.nodeAt offset).relocate f := by
  obtain ⟨item, node⟩ := e
  cases node <;> rfl

theorem recorded_relocate (w : Work) (e : Entry) (offset : Nat) :
    recorded (f offset) (w.relocate f) (e.relocate f) = (recorded offset w e).relocate f := by
  have known : (e.relocate f).node?.isSome = e.node?.isSome := Option.isSome_map
  have added := addEdge_relocate injective w.edges ⟨e.nodeAt offset, e.item.rule, none, none⟩
  unfold recorded
  rw [known, nodeAt_relocate]
  split
  · rfl
  · simp only [relocate, ← added]
    rfl

theorem holding_relocate (w : Work) (e : Entry) (offset : Nat) :
    holding (f offset) (w.relocate f) (e.relocate f) = (holding offset w e).relocate f := by
  unfold holding
  rw [nodeAt_relocate, Entry.start_relocate]
  simp only [injective.eq_iff]
  split
  · rfl
  · rfl

variable {earlier later : Array (List Entry)}

theorem entriesAt_relocate (follows : Matches f (Entry.relocate f) earlier later) (w : Work)
    (offset start : Nat) :
    entriesAt later (f offset) (w.relocate f) (f start) =
      (entriesAt earlier offset w start).map (Entry.relocate f) := by
  unfold entriesAt
  simp only [injective.eq_iff]
  split
  · rfl
  · exact follows start

theorem complete_relocate (follows : Matches f (Entry.relocate f) earlier later) (w : Work)
    (e : Entry) (offset : Nat) :
    (w.relocate f).complete later (f offset) (e.relocate f) =
      (w.complete earlier offset e).relocate f := by
  rw [complete_eq, complete_eq, recorded_relocate injective, holding_relocate injective,
    Entry.start_relocate, entriesAt_relocate injective follows, expecting_relocate, nodeAt_relocate,
    foldl_addOver_relocate injective, Entry.rule_relocate]

omit injective in
theorem lookup_relocate (held : List (Nonterminal × Node)) (n : Nonterminal) :
    (held.map (Prod.map id (Node.relocate f))).lookup n =
      (held.lookup n).map (Node.relocate f) := by
  induction held with
  | nil => rfl
  | cons entry rest ih =>
    rw [List.map_cons, List.lookup_cons, List.lookup_cons, ih]
    simp only [Prod.map_fst, Prod.map_snd, id_eq]
    split <;> rfl

theorem predict_relocate (w : Work) (e : Entry) (n : Nonterminal) (offset : Nat) :
    (w.relocate f).predict (f offset) (e.relocate f) n = (w.predict offset e n).relocate f := by
  unfold predict
  rw [foldl_add_relocate injective]
  dsimp only
  generalize n.predictions.foldl (fun w r => w.add ⟨⟨offset, 0, r⟩, none⟩) w = begun
  rw [show (begun.relocate f).held = begun.held.map (Prod.map id (Node.relocate f)) from rfl,
    lookup_relocate]
  cases begun.held.lookup n with
  | none => rfl
  | some m => exact addOver_relocate injective begun e m offset

theorem step_relocate (follows : Matches f (Entry.relocate f) earlier later) (w : Work)
    (e : Entry) (offset : Nat) :
    (w.relocate f).step later (f offset) (e.relocate f) =
      (w.step earlier offset e).relocate f := by
  unfold step
  rw [Entry.next?_relocate]
  split
  · exact complete_relocate injective follows w e offset
  · exact predict_relocate injective w e _ offset
  · rfl

theorem run_relocate (follows : Matches f (Entry.relocate f) earlier later) (offset bound : Nat)
    (w : Work) :
    (w.relocate f).run later (f offset) bound = (w.run earlier offset bound).relocate f := by
  induction bound generalizing w with
  | zero => rfl
  | succ bound ih =>
    unfold run
    rw [show (w.relocate f).agenda = w.agenda.map (Entry.relocate f) from rfl]
    cases agenda : w.agenda with
    | nil => rfl
    | cons e rest =>
      rw [List.map_cons]
      dsimp only
      rw [← ih, ← step_relocate injective follows]
      rfl

omit injective in
/-- A bound that suffices may be larger. -/
theorem run_of_le {bound more offset : Nat} {w : Work}
    (empty : (w.run earlier offset bound).agenda = []) (enough : bound ≤ more) :
    w.run earlier offset more = w.run earlier offset bound := by
  induction bound generalizing w more with
  | zero =>
    change w.agenda = [] at empty
    cases more with
    | zero => rfl
    | succ more =>
      unfold run
      rw [empty]
  | succ bound ih =>
    obtain ⟨more, rfl⟩ := Nat.exists_eq_add_of_le' (Nat.lt_of_lt_of_le (Nat.succ_pos bound) enough)
    unfold run at empty ⊢
    cases agenda : w.agenda with
    | nil => rfl
    | cons e rest =>
      rw [agenda] at empty
      exact ih empty (Nat.le_of_succ_le_succ enough)

end Work

variable {before after : Array (List Edge)}

theorem pickEdge?_relocate (follows : Matches f (Edge.relocate f) before after) (n : Node) :
    pickEdge? after (n.relocate f) = (pickEdge? before n).map (Edge.relocate f) := by
  have found : (after[(n.relocate f).stop]?.getD []).filter (·.node == n.relocate f) =
      ((before[n.stop]?.getD []).filter (·.node == n)).map (Edge.relocate f) := by
    change (after[f n.stop]?.getD []).filter _ = _
    rw [follows, List.filter_map]
    congr 2
    funext g
    refine Bool.eq_iff_iff.mpr ?_
    simpa using Node.relocate_inj injective
  unfold pickEdge?
  rw [found, show (n.relocate f).label = n.label from rfl]
  dsimp only
  cases n.label with
  | part => exact List.head?_map
  | whole =>
    dsimp only
    rw [List.foldl_map]
    refine @List.foldl_hom _ _ _ (Option.map (Edge.relocate f)) _ _ _ none ?_
    intro best g
    cases best with
    | none => rfl
    | some b =>
      change (if g.rule.order < b.rule.order then _ else _) = Option.map _ (if _ then _ else _)
      split <;> rfl

theorem trees_relocate (follows : Matches f (Edge.relocate f) before after) (bound : Nat)
    (n : Node) : (n.relocate f).trees after bound = n.trees before bound := by
  induction bound generalizing n with
  | zero => rfl
  | succ bound ih =>
    unfold Node.trees
    rw [pickEdge?_relocate injective follows]
    cases pickEdge? before n with
    | none => rfl
    | some g =>
      have left : (g.relocate f).left?.elim [] (Node.trees after bound) =
          g.left?.elim [] (Node.trees before bound) := by
        change (g.left?.map (Node.relocate f)).elim _ _ = _
        cases g.left? with
        | none => rfl
        | some m => exact ih m
      have right : (g.relocate f).right? = g.right?.map (Child.relocate f) := rfl
      rw [Option.map_some]
      dsimp only
      rw [left, right]
      cases g.right? with
      | none => rfl
      | some child =>
        cases child with
        | token t => rfl
        | node m =>
          simp only [Option.map_some, Child.relocate, ih]
          rfl

end

end SolidGeometry.Grammar
