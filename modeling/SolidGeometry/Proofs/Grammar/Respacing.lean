import SolidGeometry.Proofs.Grammar.Crossing
import SolidGeometry.Proofs.Grammar.Exactness
import SolidGeometry.Proofs.Grammar.Sliding

namespace SolidGeometry.Grammar

variable {text front back run : List Char} {place gap k : Nat} {c : Chart}

/-- Two texts that have the same reading, or both none. -/
def Alike (text other : List Char) : Prop :=
  ∀ tree, readTrimmed text = .ok tree ↔ readTrimmed other = .ok tree

theorem Alike.refl (text : List Char) : Alike text text := fun _ => Iff.rfl

theorem Alike.symm {text other : List Char} (alike : Alike text other) : Alike other text :=
  fun tree => (alike tree).symm

theorem Alike.trans {text other third : List Char} (first : Alike text other)
    (second : Alike other third) : Alike text third :=
  fun tree => (first tree).trans (second tree)

/-- The reading of a text is that of its last chart. -/
theorem readTrimmed_eq_ok_iff {tree : Tree} :
    readTrimmed text = .ok tree ↔ (closed text text.length).reading? = some [tree] := by
  unfold readTrimmed
  rcases advance_eq text with advanced | ⟨⟨offset, stuck⟩, empty⟩
  · rw [advanced]
    dsimp only
    split
    · rename_i found
      rw [found]
      simp
    · rename_i other
      constructor
      · intro absurd
        cases absurd
      · intro found
        exact absurd found (other tree)
  · rw [stuck]
    simp [Chart.reading?, empty]

theorem Alike.of_reading {text other : List Char}
    (same : (closed text text.length).reading? = (closed other other.length).reading?) :
    Alike text other := by
  intro tree
  rw [readTrimmed_eq_ok_iff, readTrimmed_eq_ok_iff, same]

theorem Entry.Backed.relocate_eq {edges : List Edge} {e : Entry} (backed : e.Backed text edges k)
    (before : k ≤ place) : e.relocate (slide place gap) = e := by
  have start : slide place gap e.item.start = e.item.start :=
    slide_of_le (Nat.le_trans backed.start before)
  obtain ⟨⟨first, dot, rule⟩, node⟩ := e
  cases node with
  | none =>
    simp only [Entry.relocate, Item.relocate, Option.map_none, Entry.mk.injEq, Item.mk.injEq,
      and_true]
    exact start
  | some n =>
    obtain ⟨_, same, _, stop, _⟩ := backed.node n rfl
    have stays : n.relocate (slide place gap) = n := by
      obtain ⟨nodeStart, nodeStop, label⟩ := n
      change nodeStart = first at same
      simp only [Node.relocate, Node.mk.injEq, and_true]
      rw [same]
      exact ⟨start, slide_of_le (Nat.le_trans stop before)⟩
    simp only [Entry.relocate, Item.relocate, Option.map_some, stays, Entry.mk.injEq,
      Item.mk.injEq, and_true]
    exact start

private theorem Entry.Backed.node_relocate_eq {edges : List Edge} {e : Entry} (gap : Nat)
    (backed : e.Backed text edges k) (before : k ≤ place) :
    e.node?.map (Node.relocate (slide place gap)) = e.node? :=
  congrArg Entry.node? (backed.relocate_eq before)

theorem Edge.Backed.relocate_eq {edges : List Edge} {g : Edge} (backed : g.Backed text edges)
    (before : g.node.stop ≤ place) : g.relocate (slide place gap) = g := by
  cases backed with
  | @empty start stop r member bare order same =>
    have stays : slide place gap start = start := slide_of_le (Nat.le_trans order before)
    simp only [Edge.relocate, Node.relocate, Option.map_none, Edge.mk.injEq, Node.mk.injEq,
      and_true]
    exact ⟨stays, slide_of_le before⟩
  | @token e i n t backed expects found =>
    have stop : i + n ≤ place := before
    have inside : i ≤ place := by omega
    have start : slide place gap e.item.start = e.item.start :=
      slide_of_le (Nat.le_trans backed.start inside)
    have node := backed.node_relocate_eq gap inside
    simp only [Entry.over, Edge.relocate, Node.relocate, Option.map_some, Child.relocate,
      Item.advance, node, start, slide_of_le stop]
  | @node o m stop n backed expects found =>
    have stop : stop ≤ place := before
    have first : m.start ≤ place := Nat.le_trans found.start stop
    have start : slide place gap o.item.start = o.item.start :=
      slide_of_le (Nat.le_trans backed.start first)
    have last : m.stop ≤ place := Nat.le_trans found.stop stop
    have node := backed.node_relocate_eq gap first
    simp only [Entry.over, Edge.relocate, Node.relocate, Option.map_some, Child.relocate,
      Item.advance, node, start, slide_of_le stop, slide_of_le first, slide_of_le last]

/-- Columns that stay as they are, with empty ones behind them. -/
theorem Spread.of_fixed {α : Type} {change : α → α} {columns : Array (List α)}
    (size : columns.size = place + 1)
    (fixed : ∀ (j : Nat) (x : α), x ∈ columns[j]?.getD [] → change x = x) :
    Spread place gap change columns (columns ++ Array.replicate gap []) where
  beyond := by omega
  columns := by
    have same : columns.toList.map (List.map change) = columns.toList := by
      refine List.map_congr_left (g := id) ?_ |>.trans (List.map_id _)
      intro column member
      obtain ⟨j, bound, rfl⟩ := List.getElem_of_mem member
      refine List.map_congr_left (g := id) ?_ |>.trans (List.map_id _)
      intro x present
      refine fixed j x ?_
      rw [Array.getElem?_eq_getElem (by simpa using bound)]
      simpa using present
    have length : columns.toList.length ≤ place + 1 := by simp [size]
    rw [List.take_of_length_le length, List.drop_of_length_le length, same]
    simp

private theorem lt_size_of_mem {α : Type} {columns : Array (List α)} {j : Nat} {x : α}
    (member : x ∈ columns[j]?.getD []) : j < columns.size := by
  by_contra beyond
  rw [Array.getElem?_eq_none (by omega)] at member
  cases member

theorem Chart.Backed.spread_columns (gap : Nat) (backed : c.Backed text place) :
    Spread place gap (Entry.relocate (slide place gap)) (c.columns.push c.column)
      (c.columns.push c.column ++ Array.replicate gap []) := by
  refine .of_fixed (by simp [backed.columnsSize]) ?_
  intro j e member
  rcases Chart.Backed.getD_push _ _ _ _ member with old | ⟨_, new⟩
  · have inside := lt_size_of_mem old
    rw [backed.columnsSize] at inside
    exact (backed.columns j e old).relocate_eq (Nat.le_of_lt inside)
  · exact (backed.column e new).relocate_eq (Nat.le_refl place)

theorem Chart.Backed.spread_edges (gap : Nat) (backed : c.Backed text place) :
    Spread place gap (Edge.relocate (slide place gap)) (c.edges.push c.fresh)
      (c.edges.push c.fresh ++ Array.replicate gap []) := by
  refine .of_fixed (by simp [backed.edgesSize]) ?_
  intro j g member
  rcases Chart.Backed.getD_push _ _ _ _ member with old | ⟨_, new⟩
  · obtain ⟨known, stop⟩ := backed.edges j g old
    have inside := lt_size_of_mem old
    rw [backed.edgesSize] at inside
    exact known.relocate_eq (stop ▸ Nat.le_of_lt inside)
  · obtain ⟨known, stop⟩ := backed.fresh g new
    exact known.relocate_eq (Nat.le_of_eq stop)

/-- What is carried over separators lies before them. -/
theorem Chart.Backed.carried_fixed (backed : c.Backed text place) :
    ∀ e ∈ c.carried, e.relocate (slide place gap) = e := by
  intro e member
  rcases List.mem_append.mp member with scan | column
  · exact (backed.scan e scan).relocate_eq (Nat.le_refl place)
  · exact (backed.column e (List.mem_filter.mp column).1).relocate_eq (Nat.le_refl place)

private theorem mem_of_mem_foldl_addEntry {entries known : List Entry} {e : Entry}
    (member : e ∈ entries.foldl addEntry known) : e ∈ known ∨ e ∈ entries := by
  induction entries generalizing known with
  | nil => exact .inl member
  | cons d rest ih =>
    rcases ih member with first | later
    · rcases mem_addEntry first with old | rfl
      · exact .inl old
      · exact .inr (by simp)
    · exact .inr (List.mem_cons_of_mem d later)

/-- Behind separators it makes no difference how many they are. -/
theorem Chart.Backed.slid_landing (backed : c.Backed text place) :
    Slid place gap (c.landing 0 c.carried) (c.landing gap c.carried) := by
  have fixed : ∀ (entries : List Entry), (∀ e ∈ entries, e ∈ c.carried) →
      (entries.foldl addEntry []).map (Entry.relocate (slide place gap)) =
        entries.foldl addEntry [] := by
    intro entries subset
    refine (List.map_congr_left (g := id) fun e member => ?_).trans (List.map_id _)
    rcases mem_of_mem_foldl_addEntry member with none | listed
    · cases none
    · exact backed.carried_fixed e (subset e listed)
  refine ⟨?_, ?_, ?_, ?_, rfl, rfl⟩
  · simpa [Chart.landing] using backed.spread_columns gap
  · simpa [Chart.landing] using backed.spread_edges gap
  · exact (fixed _ fun e member => (List.mem_filter.mp member).1).symm
  · exact (fixed _ fun e member => (List.mem_filter.mp member).1).symm

/-- Behind a run of separators stands what the text before it has found, carried over the run. -/
theorem opened_behind (apart : Apart front (run ++ back)) (some : run ≠ [])
    (separators : ∀ c ∈ run, isSeparator c = true)
    (maximal : ∀ c ∈ back.head?, isSeparator c = false) :
    opened (front ++ (run ++ back)) (front.length + run.length) =
      (closed front front.length).landing (run.length - 1)
        (closed front front.length).carried := by
  have here := closed_append apart (Nat.le_refl _)
  rw [← here]
  refine opened_across ?_ List.drop_left some separators maximal
  rw [here]
  exact pending_closed_length front

/-- Behind one blank and behind a longer run the charts differ only in the length of the run. -/
private theorem slid_behind (some : run ≠ []) (separators : ∀ c ∈ run, isSeparator c = true)
    (short : Apart front (' ' :: back)) (long : Apart front (run ++ back))
    (maximal : ∀ c ∈ back.head?, isSeparator c = false) :
    Slid front.length (run.length - 1) (opened (front ++ ' ' :: back) (front.length + 1))
      (opened (front ++ (run ++ back)) (front.length + run.length)) := by
  have one : opened (front ++ ' ' :: back) (front.length + 1) =
      (closed front front.length).landing 0 (closed front front.length).carried :=
    opened_behind (show Apart front ([' '] ++ back) from short) (by simp) (by simp [isSeparator])
      maximal
  rw [one, opened_behind long some separators maximal]
  exact (closed_backed front front.length).slid_landing

/-- A run of separators that does not follow a sign may be one blank. -/
theorem alike_run (some : run ≠ []) (separators : ∀ c ∈ run, isSeparator c = true)
    (solid : ∀ c ∈ front.getLast?, isSeparator c = false)
    (unsigned : ∀ c ∈ front.getLast?, isSign c = false)
    (maximal : ∀ c ∈ back.head?, isSeparator c = false) :
    Alike (front ++ (run ++ back)) (front ++ ' ' :: back) := by
  have long : Apart front (run ++ back) := by
    refine ⟨fun c first => ?_, solid, .inl unsigned⟩
    rw [List.head?_append_of_ne_nil _ some] at first
    exact separators c (List.mem_of_mem_head? first)
  have short : Apart front (' ' :: back) := by
    refine ⟨fun c first => ?_, solid, .inl unsigned⟩
    cases first
    rfl
  have positive := List.length_pos_iff.mpr some
  have place : front.length + run.length = front.length + 1 + (run.length - 1) := by omega
  have slid := slid_behind some separators short long maximal
  rw [place] at slid
  have same : (front ++ ' ' :: back).drop (front.length + 1) =
      (front ++ (run ++ back)).drop (front.length + 1 + (run.length - 1)) := by
    rw [← place, ← List.drop_drop, ← List.drop_drop, List.drop_left, List.drop_left, List.drop_left]
    rfl
  have stop : (front ++ (run ++ back)).length =
      front.length + 1 + back.length + (run.length - 1) := by
    simp only [List.length_append]
    omega
  have blank : (front ++ ' ' :: back).length = front.length + 1 + back.length := by
    simp only [List.length_append, List.length_cons]
    omega
  refine .of_reading ?_
  rw [stop, blank]
  exact (slid.closed same back.length).reading

/-- In front of a text all that goes on behind a blank expects a token. -/
private theorem opened_blank (back : List Char) (maximal : ∀ c ∈ back.head?, isSeparator c = false) :
    opened (' ' :: back) 1 = { Chart.initial.close with
      columns := Chart.initial.close.columns.push Chart.initial.close.column
      edges := Chart.initial.close.edges.push Chart.initial.close.fresh
      column := []
      fresh := [] } := by
  have column : Chart.initial.close.carried.filter (!·.expectsToken) = [] := by decide +kernel
  have scan : (Chart.initial.close.carried.filter (·.expectsToken)).foldl addEntry [] =
      Chart.initial.close.scan := by decide +kernel
  have across : opened ([' '] ++ back) (0 + [' '].length) = (closed ([' '] ++ back) 0).landing
      ([' '].length - 1) (closed ([' '] ++ back) 0).carried :=
    opened_across rfl rfl (by simp) (by simp [isSeparator]) maximal
  change opened (' ' :: back) 1 = Chart.initial.close.landing 0 _ at across
  rw [across, Chart.landing]
  change Chart.mk _ _ (List.foldl _ _ (Chart.initial.close.carried.filter _))
    (List.foldl _ _ (Chart.initial.close.carried.filter _)) _ _ = _
  rw [column, scan]
  simp
  rfl

private theorem separators?_of_maximal (maximal : ∀ c ∈ back.head?, isSeparator c = false) :
    separators? back = none := by
  cases back with
  | nil => rfl
  | cons c more => simp [separators?, maximal c rfl]

/-- The tokens that follow a blank at the front are those that begin the text. -/
private theorem slid_start (backed : c.Backed back 0) (pending : c.pending = [])
    (none : separators? back = none) :
    Slid 0 1 (c.move back) (Chart.move { c with
      columns := c.columns.push c.column
      edges := c.edges.push c.fresh
      column := []
      fresh := [] } back) := by
  have size : c.columns.size = 0 := backed.columnsSize
  refine Slid.of_ahead ?_ ?_ ?_ ?_
  · simpa using backed.spread_columns 1
  · simpa using backed.spread_edges 1
  · simp [Chart.offset, size, slide]
  · unfold Chart.ahead Chart.skips
    rw [pending, none, List.nil_append, List.nil_append, List.append_nil, List.append_nil]
    refine Slid.tokens ?_ ?_
    · refine (List.map_congr_left (g := id) fun e member => ?_).trans (List.map_id _) |>.symm
      exact (backed.scan e member).relocate_eq (Nat.le_refl 0)
    · intro n positive
      simp only [Chart.offset, Array.size_push, size]
      rw [slide_of_lt (by omega)]
      omega

private theorem slid_blank (maximal : ∀ c ∈ back.head?, isSeparator c = false) :
    Slid 0 1 (opened back 1) (opened (' ' :: back) 2) := by
  have blank := opened_blank back maximal
  have idle : closed (' ' :: back) 1 = opened (' ' :: back) 1 :=
    close_of_column_nil (by rw [blank])
  have second : opened (' ' :: back) 2 = (opened (' ' :: back) 1).move back := by
    rw [← idle]
    rfl
  rw [second, blank]
  exact slid_start (closed_backed back 0) rfl (separators?_of_maximal maximal)

/-- Separators at the front of a text make no difference. -/
theorem alike_behind (separators : ∀ c ∈ run, isSeparator c = true)
    (maximal : ∀ c ∈ back.head?, isSeparator c = false) : Alike (run ++ back) back := by
  by_cases some : run = []
  · rw [some]
    exact .refl back
  have one : Alike ([] ++ (run ++ back)) ([] ++ ' ' :: back) :=
    alike_run some separators (by simp) (by simp) maximal
  refine one.trans (.of_reading ?_)
  rw [List.nil_append]
  by_cases empty : back = []
  · have blank := opened_blank back maximal
    have idle : closed (' ' :: back) 1 = opened (' ' :: back) 1 :=
      close_of_column_nil (by rw [blank])
    have none : Chart.initial.close.column.find? Entry.isReading = none := by decide +kernel
    subst empty
    change (closed [' '] 1).reading? = Chart.initial.close.reading?
    rw [idle, blank]
    simp [Chart.reading?, none]
  · obtain ⟨c, more, rfl⟩ := List.exists_cons_of_ne_nil empty
    have reading := ((slid_blank maximal).closed rfl more.length).reading
    rw [show (' ' :: c :: more).length = 1 + more.length + 1 by simp; omega, reading]
    congr 2
    simp only [List.length_cons]
    omega

private theorem run_of_idle {earlier : Array (List Entry)} {offset : Nat} (bound : Nat) (w : Work)
    (idle : ∀ e ∈ w.agenda, ∀ v : Work, v.step earlier offset e = v) :
    w.run earlier offset bound = { w with agenda := w.agenda.drop bound } := by
  induction bound generalizing w with
  | zero => rfl
  | succ bound ih =>
    unfold Work.run
    cases agenda : w.agenda with
    | nil =>
      obtain ⟨column, scan, edges, waiting, held⟩ := w
      subst agenda
      rfl
    | cons e rest =>
      dsimp only
      rw [idle e (by simp [agenda]), ih]
      · rfl
      · intro d member
        exact idle d (by rw [agenda]; exact List.mem_cons_of_mem e member)

private theorem start_not_mem {n : Nonterminal} {r : Rule} (member : r ∈ n.rules) :
    Symbol.nonterminal .start ∉ r.symbols := by
  revert r
  cases n <;> decide +kernel

/-- Whole readings of the text before an offset lead to nothing more there. -/
private theorem close_of_readings (backed : c.Backed text k)
    (readings : ∀ e ∈ c.column, e.item.rule.origin = .start ∧ e.item.next? = none) :
    c.close = c := by
  have idle : ∀ e ∈ c.opening.agenda, ∀ v : Work, v.step c.columns c.offset e = v := by
    intro e member v
    have listed := List.mem_reverse.mp member
    obtain ⟨origin, finished⟩ := readings e listed
    have known := backed.column e listed
    have moved : 0 < e.item.dot := by
      have length := Item.length_le_of_next? finished
      have one := length_symbols_start (origin ▸ known.rule)
      omega
    have node : e.node?.isSome = true := by
      cases bare : e.node? with
      | none => exact absurd (known.bare bare).1 (Nat.ne_of_gt moved)
      | some n => rfl
    have away : e.item.start ≠ c.offset := by
      have before := known.moved moved
      have size : c.offset = k := backed.columnsSize
      omega
    have unwanted : expecting (c.columns[e.item.start]?.getD []) .start = [] := by
      refine List.eq_nil_iff_forall_not_mem.mpr fun o waiting => ?_
      obtain ⟨present, expects⟩ := Work.mem_expecting.mp waiting
      have rule := (backed.columns _ o present).rule
      exact start_not_mem rule (List.mem_of_getElem? expects)
    unfold Work.step
    rw [finished]
    dsimp only
    rw [Work.complete_eq, Work.recorded, if_pos node, Work.holding, if_neg away, Work.entriesAt,
      if_neg away, origin, unwanted]
    rfl
  rw [Chart.close_eq, Chart.closing, run_of_idle _ _ idle]
  rfl

private theorem find?_foldl_addEntry {accepts : Entry → Bool}
    (same : ∀ d e : Entry, d.item = e.item → accepts d = accepts e) (entries known : List Entry) :
    (entries.foldl addEntry known).find? accepts = (known ++ entries).find? accepts := by
  induction entries generalizing known with
  | nil => rw [List.append_nil]; rfl
  | cons e rest ih =>
    rw [List.foldl_cons, ih]
    unfold addEntry
    split
    · rename_i present
      obtain ⟨d, member, item⟩ := List.any_eq_true.mp present
      rw [List.find?_append, List.find?_append, List.find?_cons]
      cases accepted : accepts e with
      | true =>
        have earlier : (known.find? accepts).isSome = true :=
          List.find?_isSome.mpr ⟨d, member, (same d e (beq_iff_eq.mp item)).trans accepted⟩
        obtain ⟨first, found⟩ := Option.isSome_iff_exists.mp earlier
        rw [found]
        rfl
      | false => rfl
    · rw [List.append_assoc, List.singleton_append]

/-- Of what is carried over separators only whole readings do not expect a token. -/
private theorem filter_carried (text : List Char) (k : Nat) :
    (closed text k).carried.filter (!·.expectsToken) = (closed text k).column.filter
      fun e => e.item.rule.origin == .start && e.item.next? == none := by
  unfold Chart.carried
  rw [List.filter_append, List.filter_eq_nil_iff.mpr, List.filter_eq_self.mpr, List.nil_append]
  · intro e member
    have finished := (Bool.and_eq_true_iff.mp (List.mem_filter.mp member).2).2
    simp [Entry.expectsToken, beq_iff_eq.mp finished]
  · intro e member
    simp [expectsToken_of_mem_scan member]

/-- Behind a run at the end of the text the chart is that before the run, carried across it. -/
private theorem opened_at_end (apart : Apart front run) (some : run ≠ [])
    (separators : ∀ c ∈ run, isSeparator c = true) :
    opened (front ++ run) (front.length + run.length) =
      (closed front front.length).landing (run.length - 1)
        (closed front front.length).carried := by
  have ended : Apart front (run ++ []) := by rwa [List.append_nil]
  simpa using opened_behind ended some separators (by simp)

/-- The column behind a run at the end holds the whole readings of the text before it. -/
private theorem column_opened_behind (apart : Apart front run) (some : run ≠ [])
    (separators : ∀ c ∈ run, isSeparator c = true) :
    (opened (front ++ run) (front.length + run.length)).column =
      ((closed front front.length).column.filter
        fun e => e.item.rule.origin == .start && e.item.next? == none).foldl addEntry [] := by
  rw [opened_at_end apart some separators, ← filter_carried]
  rfl

/-- There is nothing more to do there. -/
private theorem closed_behind (apart : Apart front run) (some : run ≠ [])
    (separators : ∀ c ∈ run, isSeparator c = true) :
    closed (front ++ run) (front.length + run.length) =
      opened (front ++ run) (front.length + run.length) := by
  refine close_of_readings (opened_backed _ _) fun e member => ?_
  rw [column_opened_behind apart some separators] at member
  rcases mem_of_mem_foldl_addEntry member with none | listed
  · cases none
  · simpa using (List.mem_filter.mp listed).2

private theorem spread_behind (apart : Apart front run) (some : run ≠ [])
    (separators : ∀ c ∈ run, isSeparator c = true) :
    Spread front.length run.length (Edge.relocate (slide front.length run.length))
      ((closed front front.length).edges.push (closed front front.length).fresh)
      ((opened (front ++ run) (front.length + run.length)).edges.push
        (opened (front ++ run) (front.length + run.length)).fresh) := by
  have behind : ((closed front front.length).landing (run.length - 1)
      (closed front front.length).carried).edges.push [] =
        (closed front front.length).edges.push (closed front front.length).fresh ++
          Array.replicate run.length [] := by
    obtain ⟨n, length⟩ := Nat.exists_eq_add_of_le' (List.length_pos_iff.mpr some)
    rw [length]
    apply Array.ext'
    simp [Chart.landing, List.replicate_succ']
  rw [opened_at_end apart some separators]
  exact behind ▸ (closed_backed front front.length).spread_edges run.length

/-- The first reading of a text is also the first of those that are carried over separators. -/
private theorem find?_isReading_carried (entries : List Entry) :
    ((entries.filter fun e => e.item.rule.origin == .start && e.item.next? == none).foldl
      addEntry []).find? Entry.isReading = entries.find? Entry.isReading := by
  have kinds : ∀ d e : Entry, d.item = e.item → d.isReading = e.isReading := by
    intro d e item
    simp only [Entry.isReading, item]
  have whole : (fun e : Entry => (e.item.rule.origin == .start && e.item.next? == none) &&
      e.isReading) = Entry.isReading := by
    funext e
    unfold Entry.isReading
    cases e.item.rule.origin == .start <;> cases e.item.start == 0 <;>
      cases e.item.next? == none <;> rfl
  rw [find?_foldl_addEntry kinds, List.nil_append, List.find?_filter]
  simp only [Bool.decide_and, Bool.decide_eq_true] at whole ⊢
  rw [whole]

/-- Separators at the end of a text make no difference. -/
theorem alike_before (separators : ∀ c ∈ run, isSeparator c = true)
    (solid : ∀ c ∈ front.getLast?, isSeparator c = false) : Alike (front ++ run) front := by
  by_cases some : run = []
  · rw [some, List.append_nil]
    exact .refl front
  have apart : Apart front run :=
    ⟨fun c first => separators c (List.mem_of_mem_head? first), solid, .inr separators⟩
  refine .of_reading ?_
  rw [List.length_append, closed_behind apart some separators]
  refine Slid.reading_of_spread ?_ (spread_behind apart some separators)
  rw [column_opened_behind apart some separators, find?_isReading_carried]
  cases found : (closed front front.length).column.find? Entry.isReading with
  | none => rfl
  | some e =>
    have listed := List.mem_of_find?_eq_some found
    have known := (closed_backed front front.length).column e listed
    rw [Option.map_some, known.relocate_eq (Nat.le_refl _)]

end SolidGeometry.Grammar
