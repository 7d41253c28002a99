import SolidGeometry.Proofs.Grammar.RuleTable

/-! The work at one offset. A step takes an entry off the agenda and then makes a few changes of
known kinds, so that an invariant has only to survive these. When the agenda is empty, everything
that follows from an entry has been noted. -/
namespace SolidGeometry.Grammar

theorem mem_addEntry_of_mem {entries : List Entry} {d : Entry} (e : Entry) (member : d ∈ entries) :
    d ∈ addEntry entries e := by
  unfold addEntry
  split
  · exact member
  · exact List.mem_append_left _ member

theorem mem_addEntry {entries : List Entry} {d e : Entry} (member : d ∈ addEntry entries e) :
    d ∈ entries ∨ d = e := by
  unfold addEntry at member
  split at member
  · exact .inl member
  · simpa using member

theorem exists_mem_addEntry (entries : List Entry) (e : Entry) :
    ∃ d ∈ addEntry entries e, d.item = e.item := by
  unfold addEntry
  split
  · rename_i present
    obtain ⟨d, member, same⟩ := List.any_eq_true.mp present
    exact ⟨d, member, beq_iff_eq.mp same⟩
  · exact ⟨e, by simp, rfl⟩

theorem nodup_addEntry {entries : List Entry} (e : Entry)
    (distinct : (entries.map Entry.item).Nodup) :
    ((addEntry entries e).map Entry.item).Nodup := by
  unfold addEntry
  split
  · exact distinct
  · rename_i absent
    simp only [List.map_append, List.map_cons, List.map_nil]
    refine List.nodup_append.mpr ⟨distinct, by simp, ?_⟩
    rintro item member other single rfl
    obtain ⟨d, present, same⟩ := List.mem_map.mp member
    apply absent
    refine List.any_eq_true.mpr ⟨d, present, beq_iff_eq.mpr ?_⟩
    simpa [same] using single

theorem mem_addEdge_of_mem {edges : List Edge} {g : Edge} (f : Edge) (member : g ∈ edges) :
    g ∈ addEdge edges f := by
  unfold addEdge
  split
  · exact member
  · exact List.mem_append_left _ member

theorem mem_addEdge {edges : List Edge} {g f : Edge} (member : g ∈ addEdge edges f) :
    g ∈ edges ∨ g = f := by
  unfold addEdge at member
  split at member
  · exact .inl member
  · simpa using member

/-- Whether a node has been found in a way that one of the edges records. -/
def Named (edges : List Edge) (n : Node) : Prop := ∃ g ∈ edges, g.node = n

theorem named_addEdge (edges : List Edge) (f : Edge) : Named (addEdge edges f) f.node := by
  unfold addEdge
  split
  · rename_i present
    obtain ⟨g, member, same⟩ := List.any_eq_true.mp present
    simp only [Bool.and_eq_true, beq_iff_eq] at same
    exact ⟨g, member, same.1.1⟩
  · exact ⟨f, by simp, rfl⟩

theorem Named.mono {edges more : List Edge} {n : Node} (subset : ∀ g ∈ edges, g ∈ more)
    (named : Named edges n) : Named more n := by
  obtain ⟨g, member, same⟩ := named
  exact ⟨g, subset g member, same⟩

/-- Whether the next symbol of an item is a token. -/
def Item.expectsToken (i : Item) : Bool :=
  match i.next? with
  | some (.terminal _) => true
  | _ => false

/-- An item is noted among the entries that expect a token, or else in the column. -/
def Stored (column scan : List Entry) (i : Item) : Prop :=
  ∃ e ∈ if i.expectsToken then scan else column, e.item = i

/-- The node that stands for the entry of a whole rule at an offset. -/
def Entry.nodeAt (e : Entry) (offset : Nat) : Node :=
  e.node?.getD ⟨e.item.start, offset, .whole e.item.rule.origin⟩

namespace Work

def Has (w : Work) (i : Item) : Prop := Stored w.column w.scan i

/-- The entries at an earlier offset, or at this one. -/
def entriesAt (earlier : Array (List Entry)) (offset : Nat) (w : Work) (start : Nat) : List Entry :=
  if start = offset then w.column else earlier[start]?.getD []

/-- What a step may do to the work at an offset, once it has taken an entry off the agenda. -/
inductive Change (earlier : Array (List Entry)) (offset : Nat) (w : Work) : Work → Prop where
  | predict {e : Entry} {n : Nonterminal} {r : Rule} (known : e ∈ w.column)
      (expects : e.item.next? = some (.nonterminal n)) (member : r ∈ n.predictions) :
      Change earlier offset w (w.add ⟨⟨offset, 0, r⟩, none⟩)
  | empty {e : Entry} (known : e ∈ w.column) (finished : e.item.next? = none)
      (bare : e.node? = none) :
      Change earlier offset w
        { w with edges := addEdge w.edges ⟨e.nodeAt offset, e.item.rule, none, none⟩ }
  | hold {e : Entry} (known : e ∈ w.column) (finished : e.item.next? = none)
      (here : e.item.start = offset)
      (named : e.node? = none → Named w.edges (e.nodeAt offset)) :
      Change earlier offset w { w with held := (e.item.rule.origin, e.nodeAt offset) :: w.held }
  | complete {e o : Entry} (known : e ∈ w.column) (finished : e.item.next? = none)
      (named : e.node? = none → Named w.edges (e.nodeAt offset))
      (waiting : o ∈ entriesAt earlier offset w e.item.start)
      (expects : o.item.next? = some (.nonterminal e.item.rule.origin)) :
      Change earlier offset w (w.addOver o (e.nodeAt offset) offset)
  | resume {o : Entry} {n : Nonterminal} {m : Node} (known : o ∈ w.column)
      (expects : o.item.next? = some (.nonterminal n)) (held : (n, m) ∈ w.held) :
      Change earlier offset w (w.addOver o m offset)

/-- Changes one after another. -/
inductive Changes (earlier : Array (List Entry)) (offset : Nat) (w : Work) : Work → Prop where
  | refl : Changes earlier offset w w
  | next {v u : Work} (first : Changes earlier offset w v) (last : Change earlier offset v u) :
      Changes earlier offset w u

/-- The later work knows all that the earlier one knew; what is new in the column waits on the
agenda. -/
structure Extends (w v : Work) : Prop where
  column : ∀ e ∈ w.column, e ∈ v.column
  scan : ∀ e ∈ w.scan, e ∈ v.scan
  agenda : ∀ e ∈ w.agenda, e ∈ v.agenda
  fresh : ∀ e ∈ v.column, e ∈ w.column ∨ e ∈ v.agenda
  edges : ∀ g ∈ w.edges, g ∈ v.edges
  held : ∀ n, (w.held.lookup n).isSome → (v.held.lookup n).isSome

variable {earlier : Array (List Entry)} {offset : Nat} {w v u : Work}

theorem Extends.refl (w : Work) : Extends w w :=
  ⟨fun _ h => h, fun _ h => h, fun _ h => h, fun _ h => .inl h, fun _ h => h, fun _ h => h⟩

theorem Extends.trans (first : Extends w v) (second : Extends v u) : Extends w u where
  column e member := second.column e (first.column e member)
  scan e member := second.scan e (first.scan e member)
  agenda e member := second.agenda e (first.agenda e member)
  fresh e member := by
    rcases second.fresh e member with old | new
    · rcases first.fresh e old with older | waiting
      · exact .inl older
      · exact .inr (second.agenda e waiting)
    · exact .inr new
  edges g member := second.edges g (first.edges g member)
  held n some := second.held n (first.held n some)

theorem Extends.has (extension : Extends w v) {i : Item} (has : w.Has i) : v.Has i := by
  obtain ⟨e, member, same⟩ := has
  refine ⟨e, ?_, same⟩
  by_cases token : i.expectsToken = true
  · rw [if_pos token] at member ⊢
    exact extension.scan e member
  · rw [if_neg token] at member ⊢
    exact extension.column e member

theorem extends_add (w : Work) (e : Entry) : Extends w (w.add e) := by
  unfold add
  split
  · exact { Extends.refl w with scan := fun d member => mem_addEntry_of_mem e member }
  · split
    · exact Extends.refl w
    · refine { Extends.refl w with column := ?_, agenda := ?_, fresh := ?_ }
      · exact fun d member => List.mem_append_left _ member
      · exact fun d member => List.mem_cons_of_mem e member
      · intro d member
        rcases List.mem_append.mp member with old | new
        · exact .inl old
        · exact .inr (by simp_all)

theorem has_add (w : Work) (e : Entry) : (w.add e).Has e.item := by
  have kind : e.item.expectsToken = e.expectsToken := rfl
  unfold add Has Stored
  rw [kind]
  split
  · simpa using exists_mem_addEntry w.scan e
  · split
    · rename_i present
      obtain ⟨d, member, same⟩ := List.any_eq_true.mp present
      exact ⟨d, member, beq_iff_eq.mp same⟩
    · exact ⟨e, by simp, rfl⟩

theorem extends_addEdge (w : Work) (g : Edge) : Extends w { w with edges := addEdge w.edges g } :=
  { Extends.refl w with edges := fun _ member => mem_addEdge_of_mem g member }

theorem extends_addOver (w : Work) (o : Entry) (m : Node) (offset : Nat) :
    Extends w (w.addOver o m offset) :=
  (extends_addEdge w _).trans (extends_add _ _)

theorem has_addOver (w : Work) (o : Entry) (m : Node) (offset : Nat) :
    (w.addOver o m offset).Has o.item.advance :=
  has_add _ _

theorem Change.extends (change : Change earlier offset w v) : Extends w v := by
  cases change with
  | predict => exact extends_add _ _
  | empty => exact extends_addEdge _ _
  | hold =>
    refine { Extends.refl w with held := ?_ }
    intro n some
    rw [List.lookup_cons]
    split
    · rfl
    · exact some
  | complete => exact extends_addOver _ _ _ _
  | resume => exact extends_addOver _ _ _ _

theorem Changes.extends (changes : Changes earlier offset w v) : Extends w v := by
  induction changes with
  | refl => exact Extends.refl w
  | next _ last ih => exact ih.trans last.extends

theorem Changes.trans (first : Changes earlier offset w v) (second : Changes earlier offset v u) :
    Changes earlier offset w u := by
  induction second with
  | refl => exact first
  | next _ last ih => exact .next ih last

theorem Change.single (change : Change earlier offset w v) : Changes earlier offset w v :=
  .next .refl change

private theorem changes_predictions {e : Entry} {n : Nonterminal} (rules : List Rule)
    (known : e ∈ w.column) (expects : e.item.next? = some (.nonterminal n))
    (listed : ∀ r ∈ rules, r ∈ n.predictions) :
    Changes earlier offset w
      (rules.foldl (fun w r => w.add ⟨⟨offset, 0, r⟩, none⟩) w) := by
  induction rules generalizing w with
  | nil => exact .refl
  | cons r rest ih =>
    have first : Change earlier offset w (w.add ⟨⟨offset, 0, r⟩, none⟩) :=
      .predict known expects (listed r (by simp))
    exact first.single.trans (ih (first.extends.column e known) fun r member =>
      listed r (List.mem_cons_of_mem _ member))

private theorem entriesAt_extends (extension : Extends w v) {start : Nat} {o : Entry}
    (waiting : o ∈ entriesAt earlier offset w start) : o ∈ entriesAt earlier offset v start := by
  unfold entriesAt at waiting ⊢
  by_cases here : start = offset
  · rw [if_pos here] at waiting ⊢
    exact extension.column o waiting
  · rw [if_neg here] at waiting ⊢
    exact waiting

private theorem changes_completions {e : Entry} (os : List Entry) (known : e ∈ w.column)
    (finished : e.item.next? = none) (named : e.node? = none → Named w.edges (e.nodeAt offset))
    (waiting : ∀ o ∈ os, o ∈ entriesAt earlier offset w e.item.start ∧
      o.item.next? = some (.nonterminal e.item.rule.origin)) :
    Changes earlier offset w
      (os.foldl (fun w o => w.addOver o (e.nodeAt offset) offset) w) := by
  induction os generalizing w with
  | nil => exact .refl
  | cons o rest ih =>
    have first : Change earlier offset w (w.addOver o (e.nodeAt offset) offset) :=
      .complete known finished named (waiting o (by simp)).1 (waiting o (by simp)).2
    refine first.single.trans (ih (first.extends.column e known)
      (fun bare => (named bare).mono first.extends.edges) fun o member => ?_)
    obtain ⟨present, expects⟩ := waiting o (List.mem_cons_of_mem _ member)
    exact ⟨entriesAt_extends first.extends present, expects⟩

theorem mem_expecting {column : List Entry} {n : Nonterminal} {o : Entry} :
    o ∈ expecting column n ↔ o ∈ column ∧ o.item.next? = some (.nonterminal n) := by
  simp [expecting]

/-- The work with the node of an entry without one put on record. -/
def recorded (offset : Nat) (w : Work) (e : Entry) : Work :=
  if e.node?.isSome then w
  else { w with edges := addEdge w.edges ⟨e.nodeAt offset, e.item.rule, none, none⟩ }

/-- The work with an entry that was found without any character held. -/
def holding (offset : Nat) (w : Work) (e : Entry) : Work :=
  if e.item.start = offset then
    { w with held := (e.item.rule.origin, e.nodeAt offset) :: w.held }
  else w

theorem complete_eq (earlier : Array (List Entry)) (offset : Nat) (w : Work) (e : Entry) :
    w.complete earlier offset e =
      (expecting (entriesAt earlier offset (holding offset (recorded offset w e) e) e.item.start)
        e.item.rule.origin).foldl (fun w o => w.addOver o (e.nodeAt offset) offset)
        (holding offset (recorded offset w e) e) := by
  rfl

theorem column_recorded (offset : Nat) (w : Work) (e : Entry) :
    (recorded offset w e).column = w.column := by
  unfold recorded
  split <;> rfl

theorem column_holding (offset : Nat) (w : Work) (e : Entry) :
    (holding offset w e).column = w.column := by
  unfold holding
  split <;> rfl

private theorem named_recorded {e : Entry} (bare : e.node? = none) :
    Named (recorded offset w e).edges (e.nodeAt offset) := by
  simp only [recorded, bare, Option.isSome_none, Bool.false_eq_true, ↓reduceIte]
  exact named_addEdge _ _

private theorem changes_holding {e : Entry} (known : e ∈ w.column)
    (finished : e.item.next? = none) :
    Changes earlier offset w (holding offset (recorded offset w e) e) := by
  have record : Changes earlier offset w (recorded offset w e) := by
    unfold recorded
    split
    · exact .refl
    · rename_i bare
      exact (Change.empty known finished (by simpa using bare)).single
  have known' : e ∈ (recorded offset w e).column := column_recorded offset w e ▸ known
  refine record.trans ?_
  unfold holding
  split
  · rename_i here
    exact (Change.hold known' finished here named_recorded).single
  · exact .refl

private theorem edges_holding (offset : Nat) (w : Work) (e : Entry) :
    (holding offset w e).edges = w.edges := by
  unfold holding
  split <;> rfl

theorem changes_complete {e : Entry} (known : e ∈ w.column) (finished : e.item.next? = none) :
    Changes earlier offset w (w.complete earlier offset e) := by
  rw [complete_eq]
  refine (changes_holding known finished).trans (changes_completions _ ?_ finished ?_ ?_)
  · rw [column_holding, column_recorded]
    exact known
  · intro bare
    rw [edges_holding]
    exact named_recorded bare
  · intro o member
    exact mem_expecting.mp member

private theorem mem_of_lookup {held : List (Nonterminal × Node)} {n : Nonterminal} {m : Node}
    (found : held.lookup n = some m) : (n, m) ∈ held := by
  induction held with
  | nil => cases found
  | cons entry rest ih =>
    rw [List.lookup_cons] at found
    split at found
    · rename_i same
      cases found
      simp [beq_iff_eq.mp same]
    · exact List.mem_cons_of_mem _ (ih found)

theorem changes_predict {e : Entry} {n : Nonterminal} (known : e ∈ w.column)
    (expects : e.item.next? = some (.nonterminal n)) :
    Changes earlier offset w (w.predict offset e n) := by
  have begun : Changes earlier offset w
      (n.predictions.foldl (fun w r => w.add ⟨⟨offset, 0, r⟩, none⟩) w) :=
    changes_predictions n.predictions known expects fun _ member => member
  unfold predict
  dsimp only
  split
  · rename_i m found
    refine begun.trans (Change.resume ?_ expects (mem_of_lookup found)).single
    exact begun.extends.column e known
  · exact begun

theorem changes_step {e : Entry} (known : e ∈ w.column) :
    Changes earlier offset w (w.step earlier offset e) := by
  unfold step
  split
  · rename_i finished
    exact changes_complete known finished
  · rename_i n expects
    exact changes_predict known expects
  · exact .refl

end Work

end SolidGeometry.Grammar
