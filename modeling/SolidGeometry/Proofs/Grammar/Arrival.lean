import SolidGeometry.Proofs.Grammar.ChartInvariant

namespace SolidGeometry.Grammar

variable {text : List Char} {k : Nat} {c : Chart}

/-- The item with which a pending entry arrives. -/
def Pending.item (p : Pending) : Item :=
  match p.token? with
  | none => p.entry.item
  | some _ => p.entry.item.advance

namespace Chart

def Has (c : Chart) (i : Item) : Prop := Stored c.column c.scan i

/-- The entries that go on when a closed chart is moved over a character. -/
def ahead (c : Chart) (text : List Char) : List Pending :=
  c.pending ++ c.tokens text ++ c.skips text

/-- A chart that has been moved, before anything has arrived. -/
def turned (c : Chart) (text : List Char) : Chart where
  columns := c.columns.push c.column
  edges := c.edges.push c.fresh
  column := []
  scan := []
  fresh := []
  pending := (c.ahead text).filter (·.stop != c.offset + 1)

theorem move_eq (c : Chart) (text : List Char) :
    c.move text = ((c.ahead text).filter (·.stop == c.offset + 1)).foldl
      (arrive (c.offset + 1)) (c.turned text) := rfl

/-- What arrives leaves alone what lies before and what is pending, and adds to the rest. -/
structure Joined (c d : Chart) : Prop where
  columns : d.columns = c.columns
  edges : d.edges = c.edges
  pending : d.pending = c.pending
  column : ∀ e ∈ c.column, e ∈ d.column
  scan : ∀ e ∈ c.scan, e ∈ d.scan
  fresh : ∀ g ∈ c.fresh, g ∈ d.fresh

theorem Joined.refl (c : Chart) : Joined c c :=
  ⟨rfl, rfl, rfl, fun _ member => member, fun _ member => member, fun _ member => member⟩

theorem Joined.trans {c d b : Chart} (first : Joined c d) (second : Joined d b) : Joined c b :=
  ⟨second.columns.trans first.columns, second.edges.trans first.edges,
    second.pending.trans first.pending, fun e member => second.column e (first.column e member),
    fun e member => second.scan e (first.scan e member),
    fun g member => second.fresh g (first.fresh g member)⟩

theorem Joined.allEdges {c d : Chart} (joined : Joined c d) : ∀ g ∈ c.allEdges, g ∈ d.allEdges := by
  intro g member
  rcases List.mem_append.mp member with old | recent
  · refine List.mem_append_left _ ?_
    unfold before at old ⊢
    rw [joined.edges]
    exact old
  · exact List.mem_append_right _ (joined.fresh g recent)

theorem Joined.has {c d : Chart} (joined : Joined c d) {i : Item} (has : c.Has i) : d.Has i := by
  obtain ⟨e, member, same⟩ := has
  refine ⟨e, ?_, same⟩
  split
  · rename_i token
    rw [if_pos token] at member
    exact joined.scan e member
  · rename_i token
    rw [if_neg token] at member
    exact joined.column e member

def add (c : Chart) (e : Entry) : Chart :=
  if e.expectsToken then { c with scan := addEntry c.scan e }
  else { c with column := addEntry c.column e }

theorem joined_add (c : Chart) (e : Entry) : Joined c (c.add e) := by
  unfold add
  split
  · exact { Joined.refl c with scan := fun _ member => mem_addEntry_of_mem e member }
  · exact { Joined.refl c with column := fun _ member => mem_addEntry_of_mem e member }

theorem has_add (c : Chart) (e : Entry) : (c.add e).Has e.item := by
  have kind : e.item.expectsToken = e.expectsToken := rfl
  unfold add Has Stored
  rw [kind]
  split
  · exact exists_mem_addEntry c.scan e
  · exact exists_mem_addEntry c.column e

theorem arrive_carried (stop : Nat) (c : Chart) (e : Entry) (k : Nat) :
    c.arrive stop ⟨k, e, none⟩ = c.add e := by
  unfold arrive add
  rfl

theorem arrive_token (stop : Nat) (c : Chart) (e : Entry) (k : Nat) (t : Token) :
    c.arrive stop ⟨k, e, some t⟩ =
      ({ c with fresh := addEdge c.fresh (e.over (.token t) stop).2 } : Chart).add
        (e.over (.token t) stop).1 := by
  unfold arrive add
  rfl

theorem joined_arrive (stop : Nat) (c : Chart) (p : Pending) : Joined c (c.arrive stop p) := by
  obtain ⟨k, e, token⟩ := p
  cases token with
  | none => rw [arrive_carried]; exact joined_add c e
  | some t =>
    rw [arrive_token]
    have recorded : Joined c { c with fresh := addEdge c.fresh (e.over (.token t) stop).2 } :=
      { Joined.refl c with fresh := fun _ member => mem_addEdge_of_mem _ member }
    exact recorded.trans (joined_add _ _)

theorem has_arrive (stop : Nat) (c : Chart) (p : Pending) : (c.arrive stop p).Has p.item := by
  obtain ⟨k, e, token⟩ := p
  cases token with
  | none => rw [arrive_carried]; exact has_add c e
  | some t => rw [arrive_token]; exact has_add _ _

theorem joined_foldl (stop : Nat) (ps : List Pending) (c : Chart) :
    Joined c (ps.foldl (arrive stop) c) := by
  induction ps generalizing c with
  | nil => exact Joined.refl c
  | cons p rest ih => exact (joined_arrive stop c p).trans (ih _)

theorem has_foldl {stop : Nat} {ps : List Pending} {p : Pending} (member : p ∈ ps) (c : Chart) :
    (ps.foldl (arrive stop) c).Has p.item := by
  induction ps generalizing c with
  | nil => cases member
  | cons q rest ih =>
    rcases List.mem_cons.mp member with rfl | later
    · exact (joined_foldl stop rest _).has (has_arrive stop c p)
    · exact ih later _

theorem joined_move (c : Chart) (text : List Char) : Joined (c.turned text) (c.move text) := by
  rw [move_eq]
  exact joined_foldl _ _ _

/-- What goes on either arrives at the next offset or stays pending. -/
theorem has_move_or_mem_pending {c : Chart} {text : List Char} {p : Pending}
    (member : p ∈ c.ahead text) :
    p.stop = c.offset + 1 ∧ (c.move text).Has p.item ∨ p ∈ (c.move text).pending := by
  by_cases next : p.stop = c.offset + 1
  · left
    refine ⟨next, ?_⟩
    rw [move_eq]
    exact has_foldl (List.mem_filter.mpr ⟨member, by simpa using next⟩) _
  · right
    rw [(joined_move c text).pending]
    exact List.mem_filter.mpr ⟨member, by simpa using next⟩

end Chart

theorem mem_tokens {p : Pending} (member : p ∈ c.tokens text) :
    ∃ e ∈ c.scan, ∃ t n, e.item.next? = some (.terminal t) ∧ t.match? text = some n ∧
      p = ⟨c.offset + n, e, some ⟨t, text.take n⟩⟩ := by
  obtain ⟨e, present, goes⟩ := List.mem_filterMap.mp member
  split at goes
  · rename_i t expects
    obtain ⟨n, found, rfl⟩ := Option.map_eq_some_iff.mp goes
    exact ⟨e, present, t, n, expects, found, rfl⟩
  · cases goes

theorem mem_skips {p : Pending} (member : p ∈ c.skips text) :
    ∃ e n, (e ∈ c.scan ∨ e ∈ c.column) ∧ separators? text = some n ∧
      p = ⟨c.offset + n, e, none⟩ := by
  unfold Chart.skips at member
  split at member
  · cases member
  · rename_i n found
    obtain ⟨e, present, rfl⟩ := List.mem_map.mp member
    refine ⟨e, n, ?_, found, rfl⟩
    exact (List.mem_append.mp present).imp id fun whole => (List.mem_filter.mp whole).1

/-- What goes on goes forward. -/
theorem stop_of_mem_ahead (later : ∀ p ∈ c.pending, c.offset < p.stop) {p : Pending}
    (member : p ∈ c.ahead text) : c.offset < p.stop := by
  rcases List.mem_append.mp member with old | skip
  · rcases List.mem_append.mp old with old | token
    · exact later p old
    · obtain ⟨e, _, t, n, _, found, rfl⟩ := mem_tokens token
      exact Nat.lt_add_of_pos_right (match?_bounds found).1
  · obtain ⟨e, n, _, found, rfl⟩ := mem_skips skip
    exact Nat.lt_add_of_pos_right (separators?_bounds found).1

namespace Chart.Backed

theorem ahead (backed : c.Backed text k) {p : Pending} (member : p ∈ c.ahead (text.drop k)) :
    p.Backed text c.allEdges := by
  have offset : c.offset = k := backed.columnsSize
  rcases List.mem_append.mp member with old | skip
  · rcases List.mem_append.mp old with old | token
    · exact backed.pending p old
    · obtain ⟨e, present, t, n, expects, found, rfl⟩ := mem_tokens token
      rw [offset]
      exact .token (backed.scan e present) expects found
  · obtain ⟨e, n, present, found, rfl⟩ := mem_skips skip
    have known : e.Backed text c.allEdges k := present.elim (backed.scan e) (backed.column e)
    rw [offset]
    refine .carried (known.carry (Nat.le_add_right k n) ?_)
    rw [← List.drop_drop, (separators?_bounds found).2.2, skip_skip]

theorem add {e : Entry} (backed : c.Backed text k) (new : e.Backed text c.allEdges k) :
    (c.add e).Backed text k := by
  unfold Chart.add
  split
  · refine { backed with scan := fun d member => ?_ }
    rcases mem_addEntry member with old | rfl
    · exact backed.scan d old
    · exact new
  · refine { backed with column := fun d member => ?_ }
    rcases mem_addEntry member with old | rfl
    · exact backed.column d old
    · exact new

theorem addEdge {g : Edge} (backed : c.Backed text k) (new : g.Backed text c.allEdges)
    (stop : g.node.stop = k) :
    ({ c with fresh := Grammar.addEdge c.fresh g } : Chart).Backed text k := by
  have subset : ∀ f ∈ c.allEdges, f ∈ c.before ++ Grammar.addEdge c.fresh g := by
    intro f member
    rcases List.mem_append.mp member with old | recent
    · exact List.mem_append_left _ old
    · exact List.mem_append_right _ (mem_addEdge_of_mem g recent)
  exact {
    columnsSize := backed.columnsSize
    edgesSize := backed.edgesSize
    columns := backed.columns
    edges := fun j f member =>
      ⟨(backed.edges j f member).1.mono subset, (backed.edges j f member).2⟩
    column := fun e member => (backed.column e member).mono subset
    scan := fun e member => (backed.scan e member).mono subset
    fresh := fun f member => by
      rcases mem_addEdge member with old | rfl
      · exact ⟨(backed.fresh f old).1.mono subset, (backed.fresh f old).2⟩
      · exact ⟨new.mono subset, stop⟩
    pending := fun p member => (backed.pending p member).mono subset }

theorem arrive {p : Pending} (backed : c.Backed text k) (stop : p.stop = k)
    (new : p.Backed text c.allEdges) : (c.arrive k p).Backed text k := by
  cases new with
  | carried new =>
    obtain rfl : _ = k := stop
    rw [Chart.arrive_carried]
    exact backed.add new
  | @token e i n t new expects found =>
    obtain rfl : i + n = k := stop
    rw [Chart.arrive_token]
    have recorded := backed.addEdge (.token new expects found) rfl
    refine recorded.add (Entry.Backed.overToken (new.mono ?_) expects (match?_bounds found).1 _ ?_)
    · intro f member
      rcases List.mem_append.mp member with old | recent
      · exact List.mem_append_left _ old
      · exact List.mem_append_right _ (mem_addEdge_of_mem _ recent)
    · exact (named_addEdge _ _).mono fun f member => List.mem_append_right _ member

theorem foldl {ps : List Pending} (backed : c.Backed text k)
    (new : ∀ p ∈ ps, p.stop = k ∧ p.Backed text c.allEdges) :
    (ps.foldl (Chart.arrive k) c).Backed text k := by
  induction ps generalizing c with
  | nil => exact backed
  | cons p rest ih =>
    have first := new p (by simp)
    have joined := Chart.joined_arrive k c p
    refine ih (backed.arrive first.1 first.2) fun q member => ?_
    have later := new q (List.mem_cons_of_mem p member)
    exact ⟨later.1, later.2.mono joined.allEdges⟩

theorem getD_push {α : Type} (xs : Array (List α)) (x : List α) (j : Nat) (a : α)
    (member : a ∈ (xs.push x)[j]?.getD []) : a ∈ xs[j]?.getD [] ∨ j = xs.size ∧ a ∈ x := by
  rw [Array.getElem?_push] at member
  split at member
  · rename_i last
    exact .inr ⟨last, member⟩
  · exact .inl member

theorem turned (backed : c.Backed text k) : (c.turned (text.drop k)).Backed text (k + 1) := by
  have before : (c.turned (text.drop k)).before = c.allEdges := by
    simp [Chart.before, Chart.turned, Chart.allEdges]
  have allEdges : (c.turned (text.drop k)).allEdges = c.allEdges := by
    unfold Chart.allEdges
    rw [before]
    simp [Chart.turned, Chart.allEdges]
  refine ⟨?_, ?_, ?_, ?_, ?_, ?_, ?_, ?_⟩
  · simp [Chart.turned, backed.columnsSize]
  · simp [Chart.turned, backed.edgesSize]
  · intro j o member
    rw [before]
    rcases getD_push _ _ _ _ member with old | ⟨last, new⟩
    · exact (backed.columns j o old).mono fun g member => List.mem_append_left _ member
    · rw [last, backed.columnsSize]
      exact backed.column o new
  · intro j g member
    rw [allEdges]
    rcases getD_push _ _ _ _ member with old | ⟨last, new⟩
    · exact backed.edges j g old
    · rw [last, backed.edgesSize]
      exact backed.fresh g new
  · intro e member
    cases member
  · intro e member
    cases member
  · intro g member
    cases member
  · intro p member
    rw [allEdges]
    exact backed.ahead (List.mem_filter.mp member).1

theorem move (backed : c.Backed text k) : (c.move (text.drop k)).Backed text (k + 1) := by
  have offset : c.offset = k := backed.columnsSize
  have joined := backed.turned
  rw [Chart.move_eq, offset]
  refine joined.foldl fun p member => ?_
  obtain ⟨goes, stop⟩ := List.mem_filter.mp member
  refine ⟨beq_iff_eq.mp stop, (backed.ahead goes).mono fun g known => List.mem_append_left _ ?_⟩
  simpa [Chart.before, Chart.turned, Chart.allEdges] using known

end Chart.Backed

/-- The items that arrive differ. -/
theorem nodup_move (c : Chart) (text : List Char) :
    ((c.move text).column.map Entry.item).Nodup := by
  have arrive : ∀ (stop : Nat) (c : Chart) (p : Pending), (c.column.map Entry.item).Nodup →
      ((c.arrive stop p).column.map Entry.item).Nodup := by
    intro stop c p distinct
    obtain ⟨k, e, token⟩ := p
    cases token with
    | none =>
      rw [Chart.arrive_carried, Chart.add]
      split
      · exact distinct
      · exact nodup_addEntry e distinct
    | some t =>
      rw [Chart.arrive_token, Chart.add]
      split
      · exact distinct
      · exact nodup_addEntry _ distinct
  rw [Chart.move_eq]
  have none : ((c.turned text).column.map Entry.item).Nodup := List.nodup_nil
  exact List.foldlRecOn (motive := fun c : Chart => (c.column.map Entry.item).Nodup) _ _ none
    fun c distinct p _ => arrive _ c p distinct

end SolidGeometry.Grammar
