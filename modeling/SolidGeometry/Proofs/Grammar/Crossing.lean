import SolidGeometry.Proofs.Grammar.Separation
import SolidGeometry.Proofs.Grammar.Timeline

/-! Charts in front of separators and behind them. In front of separators a chart is that of the text
without them and without what follows them; behind them the entries that expect a token and the
whole readings arrive again, with empty columns between. -/
namespace SolidGeometry.Grammar

variable {text front back run rest : List Char} {k : Nat} {c : Chart}

theorem tokens_append (c : Chart) (apart : Apart front back) :
    c.tokens (front ++ back) = c.tokens front := by
  unfold Chart.tokens
  congr 1
  funext e
  split
  · rename_i t expects
    rw [match?_append_of_apart t apart]
    cases found : t.match? front with
    | none => rfl
    | some n =>
      have inside := (match?_bounds found).2
      rw [Option.map_some, Option.map_some, List.take_append_of_le_length inside]
  · rfl

theorem move_append (c : Chart) (apart : Apart front back) (some : front ≠ []) :
    c.move (front ++ back) = c.move front := by
  have ahead : c.ahead (front ++ back) = c.ahead front := by
    unfold Chart.ahead Chart.skips
    rw [tokens_append c apart, separators?_append_of_apart apart some]
  rw [Chart.move_eq, Chart.move_eq, Chart.turned, Chart.turned, ahead]

/-- Up to the separators a chart does not depend on them. -/
theorem opened_append (apart : Apart front back) (inside : k ≤ front.length) :
    opened (front ++ back) k = opened front k := by
  induction k with
  | zero => rfl
  | succ k ih =>
    have ahead : (front ++ back).drop k = front.drop k ++ back :=
      List.drop_append_of_le_length (Nat.le_of_succ_le inside)
    have some : front.drop k ≠ [] := by
      intro none
      have short := List.drop_eq_nil_iff.mp none
      omega
    rw [opened_succ, opened_succ, closed, closed, ih (Nat.le_of_succ_le inside), ahead,
      move_append _ (apart.drop k) some]

theorem closed_append (apart : Apart front back) (inside : k ≤ front.length) :
    closed (front ++ back) k = closed front k :=
  congrArg Chart.close (opened_append apart inside)

/-- What is pending arrives within the text. -/
private theorem pending_within (text : List Char) (k : Nat) :
    ∀ p ∈ (opened text k).pending, p.stop ≤ text.length := by
  induction k with
  | zero =>
    intro p member
    cases member
  | succ k ih =>
    intro p member
    rw [opened_succ, (Chart.joined_move _ _).pending] at member
    rcases List.mem_append.mp (List.mem_filter.mp member).1 with old | skip
    · rcases List.mem_append.mp old with old | token
      · exact ih p old
      · obtain ⟨e, _, t, n, _, found, rfl⟩ := mem_tokens token
        have bounds := match?_bounds found
        rw [List.length_drop] at bounds
        rw [offset_closed]
        dsimp only
        omega
    · obtain ⟨e, n, _, found, rfl⟩ := mem_skips skip
      have bounds := separators?_bounds found
      rw [List.length_drop] at bounds
      rw [offset_closed]
      dsimp only
      omega

/-- At its end nothing of a text is pending. -/
theorem pending_closed_length (text : List Char) : (closed text text.length).pending = [] := by
  refine List.eq_nil_iff_forall_not_mem.mpr fun p member => ?_
  have later := pending_later text text.length p member
  have within := pending_within text text.length p member
  omega

private theorem scan_add {w : Work} (apart : ∀ e ∈ w.scan, e.expectsToken = true) (e : Entry) :
    ∀ d ∈ (w.add e).scan, d.expectsToken = true := by
  unfold Work.add
  split
  · rename_i token
    intro d member
    rcases mem_addEntry member with old | rfl
    · exact apart d old
    · exact token
  · split
    · exact apart
    · exact apart

private theorem scan_kept (earlier : Array (List Entry)) (offset : Nat) :
    Work.Kept earlier offset fun w => ∀ e ∈ w.scan, e.expectsToken = true where
  take _ _ _ apart := apart
  change w v change apart := by
    have moved : ∀ (o : Entry) (m : Node), ∀ d ∈ (w.addOver o m offset).scan,
        d.expectsToken = true := by
      intro o m
      exact scan_add (w := { w with edges := addEdge w.edges (o.over (.node m) offset).2 }) apart _
    cases change with
    | predict => exact scan_add apart _
    | empty => exact apart
    | hold => exact apart
    | complete => exact moved _ _
    | resume => exact moved _ _

private theorem scan_arrive (stop : Nat) (p : Pending)
    (apart : ∀ e ∈ c.scan, e.expectsToken = true) :
    ∀ e ∈ (c.arrive stop p).scan, e.expectsToken = true := by
  have added : ∀ {c : Chart}, (∀ e ∈ c.scan, e.expectsToken = true) → ∀ d : Entry,
      ∀ e ∈ (c.add d).scan, e.expectsToken = true := by
    intro c apart d
    unfold Chart.add
    split
    · rename_i token
      intro e member
      rcases mem_addEntry member with old | rfl
      · exact apart e old
      · exact token
    · exact apart
  obtain ⟨k, e, token⟩ := p
  cases token with
  | none =>
    rw [Chart.arrive_carried]
    exact added apart e
  | some t =>
    rw [Chart.arrive_token]
    exact added (c := { c with fresh := addEdge c.fresh (e.over (.token t) stop).2 }) apart _

theorem expectsToken_of_mem_scan {e : Entry} (member : e ∈ (closed text k).scan) :
    e.expectsToken = true := by
  have opened : ∀ e ∈ (opened text k).scan, e.expectsToken = true := by
    cases k with
    | zero => exact fun e member => (List.mem_filter.mp member).2
    | succ k =>
      rw [opened_succ, Chart.move_eq]
      have none : ∀ e ∈ ((closed text k).turned (text.drop k)).scan, e.expectsToken = true :=
        fun e member => nomatch member
      exact List.foldlRecOn (motive := fun c : Chart => ∀ e ∈ c.scan, e.expectsToken = true)
        _ _ none fun c apart p _ => scan_arrive _ p apart
  have orderly : (Grammar.opened text k).opening.Orderly :=
    ⟨fun e member => List.mem_reverse.mp member, nodup_opened text k⟩
  exact (scan_kept _ _).run _ orderly opened e member

/-- The entries of a closed chart that go on behind separators. -/
def Chart.carried (c : Chart) : List Entry :=
  c.scan ++ c.column.filter fun e => e.item.rule.origin == .start && e.item.next? == none

/-- The chart at which entries arrive behind a number of further offsets where nothing arrives. -/
def Chart.landing (c : Chart) (gap : Nat) (entries : List Entry) : Chart where
  columns := c.columns.push c.column ++ Array.replicate gap []
  edges := c.edges.push c.fresh ++ Array.replicate gap []
  column := (entries.filter (!·.expectsToken)).foldl addEntry []
  scan := (entries.filter (·.expectsToken)).foldl addEntry []
  fresh := []
  pending := []

theorem foldl_add (entries : List Entry) (c : Chart) :
    entries.foldl Chart.add c = { c with
      column := (entries.filter (!·.expectsToken)).foldl addEntry c.column
      scan := (entries.filter (·.expectsToken)).foldl addEntry c.scan } := by
  induction entries generalizing c with
  | nil => rfl
  | cons e rest ih =>
    rw [List.foldl_cons, ih]
    unfold Chart.add
    by_cases token : e.expectsToken = true
    · simp [token]
    · simp [token]

/-- The chart behind an offset at which nothing arrives, before what is still to come. -/
def Chart.vacant (c : Chart) (pending : List Pending) : Chart where
  columns := c.columns.push c.column
  edges := c.edges.push c.fresh
  column := []
  scan := []
  fresh := []
  pending := pending

/-- Entries that all go on to the next offset arrive there. -/
private theorem opened_next {entries : List Entry}
    (ahead : (closed text k).ahead (text.drop k) = entries.map fun e => ⟨k + 1, e, none⟩) :
    opened text (k + 1) = (closed text k).landing 0 entries := by
  have turned : (closed text k).turned (text.drop k) = (closed text k).vacant [] := by
    unfold Chart.turned
    rw [ahead, offset_closed]
    simp [Chart.vacant]
  rw [opened_succ, Chart.move_eq, turned, ahead, offset_closed]
  rw [List.filter_eq_self.mpr (by simp), List.foldl_map]
  simp only [Chart.arrive_carried]
  rw [foldl_add]
  simp [Chart.landing, Chart.vacant]

/-- Entries that all go on beyond the next offset leave it empty. -/
private theorem opened_vacant {entries : List Entry} {stop : Nat} (beyond : k + 1 < stop)
    (ahead : (closed text k).ahead (text.drop k) = entries.map fun e => ⟨stop, e, none⟩) :
    opened text (k + 1) = (closed text k).vacant (entries.map fun e => ⟨stop, e, none⟩) := by
  have stays : ((closed text k).ahead (text.drop k)).filter
      (·.stop == (closed text k).offset + 1) = [] := by
    rw [ahead, offset_closed, List.filter_eq_nil_iff]
    intro p member
    obtain ⟨e, _, rfl⟩ := List.mem_map.mp member
    simp
    omega
  rw [opened_succ, Chart.move_eq, stays]
  unfold Chart.turned
  rw [ahead, offset_closed]
  simp [Chart.vacant]
  omega

/-- Entries that all go on to one offset arrive there together, and nothing does before. -/
theorem opened_of_ahead {gap : Nat} {entries : List Entry}
    (ahead : (closed text k).ahead (text.drop k) =
      entries.map fun e => ⟨k + 1 + gap, e, none⟩) :
    opened text (k + 1 + gap) = (closed text k).landing gap entries := by
  induction gap generalizing k with
  | zero => exact opened_next ahead
  | succ gap ih =>
    have next := opened_vacant (by omega) ahead
    have idle : closed text (k + 1) = opened text (k + 1) :=
      close_of_column_nil (by rw [next]; rfl)
    have later : (closed text (k + 1)).ahead (text.drop (k + 1)) =
        entries.map fun e => ⟨k + 1 + 1 + gap, e, none⟩ := by
      rw [idle, next, show k + 1 + 1 + gap = k + 1 + (gap + 1) by omega]
      unfold Chart.ahead Chart.tokens Chart.skips Chart.vacant
      split <;> simp
    rw [show k + 1 + (gap + 1) = k + 1 + 1 + gap by omega, ih later, idle, next]
    unfold Chart.landing Chart.vacant
    simp only [Chart.mk.injEq, and_self, and_true]
    constructor
    · apply Array.ext'
      simp [List.replicate_succ]
    · apply Array.ext'
      simp [List.replicate_succ]

/-- Behind a run of separators what was carried over it arrives. -/
theorem opened_across (pending : (closed text k).pending = [])
    (ahead : text.drop k = run ++ rest) (some : run ≠ [])
    (separators : ∀ c ∈ run, isSeparator c = true)
    (solid : ∀ c ∈ rest.head?, isSeparator c = false) :
    opened text (k + run.length) =
      (closed text k).landing (run.length - 1) (closed text k).carried := by
  have taken : separators? (run ++ rest) = Option.some run.length := by
    have whole : (run ++ rest).takeWhile isSeparator = run := by
      rw [List.takeWhile_append_of_pos separators]
      cases rest with
      | nil => simp
      | cons c more => simp [solid c rfl]
    unfold separators?
    rw [whole]
    cases run with
    | nil => exact absurd rfl some
    | cons c more => rfl
  have tokens : (closed text k).tokens (run ++ rest) = [] := by
    obtain ⟨c, more, rfl⟩ := List.exists_cons_of_ne_nil some
    refine List.filterMap_eq_nil_iff.mpr fun e _ => ?_
    split
    · rw [List.cons_append, match?_of_isSeparator _ _ (separators c (by simp))]
      rfl
    · rfl
  have positive := List.length_pos_iff.mpr some
  have goes : (closed text k).ahead (text.drop k) = (closed text k).carried.map
      fun e => ⟨k + 1 + (run.length - 1), e, none⟩ := by
    unfold Chart.ahead Chart.skips
    rw [pending, ahead, tokens, taken, offset_closed, show k + 1 + (run.length - 1) =
      k + run.length by omega]
    rfl
  rw [← opened_of_ahead goes]
  congr 1
  omega

end SolidGeometry.Grammar
