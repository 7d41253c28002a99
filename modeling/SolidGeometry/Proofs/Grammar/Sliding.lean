import SolidGeometry.Proofs.Grammar.Relocation
import SolidGeometry.Proofs.Grammar.Timeline

/-! Charts of two texts that agree from some offset on. If the offsets behind a place are moved on
in one of the charts, with empty columns between, then both charts go on in the same way and end with
the same trees. -/
namespace SolidGeometry.Grammar

/-- Offsets behind a place are moved on, those up to it stay. -/
def slide (place gap j : Nat) : Nat := if j ≤ place then j else j + gap

theorem slide_injective (place gap : Nat) : Function.Injective (slide place gap) := by
  intro i j same
  unfold slide at same
  split at same <;> split at same <;> omega

theorem slide_of_le {place gap j : Nat} (before : j ≤ place) : slide place gap j = j :=
  if_pos before

theorem slide_of_lt {place gap j : Nat} (behind : place < j) : slide place gap j = j + gap :=
  if_neg (Nat.not_le_of_lt behind)

/-- The columns behind a place are moved on, and empty ones fill the gap. -/
structure Spread {α : Type} (place gap : Nat) (change : α → α) (before after : Array (List α)) :
    Prop where
  beyond : place < before.size
  columns : after.toList = (before.toList.take (place + 1)).map (List.map change) ++
    List.replicate gap [] ++ (before.toList.drop (place + 1)).map (List.map change)

namespace Spread

variable {α : Type} {place gap : Nat} {change : α → α} {before after : Array (List α)}

theorem size (spread : Spread place gap change before after) :
    after.size = before.size + gap := by
  have beyond := spread.beyond
  rw [← Array.length_toList, spread.columns]
  simp only [List.length_append, List.length_map, List.length_take, List.length_replicate,
    List.length_drop, Array.length_toList]
  omega

theorem push (spread : Spread place gap change before after) (column : List α) :
    Spread place gap change (before.push column) (after.push (column.map change)) where
  beyond := by
    rw [Array.size_push]
    exact Nat.lt_succ_of_lt spread.beyond
  columns := by
    have inside : place + 1 ≤ before.toList.length := by simpa using spread.beyond
    rw [Array.toList_push, Array.toList_push, spread.columns,
      List.take_append_of_le_length inside, List.drop_append_of_le_length inside]
    simp

theorem at_slide (spread : Spread place gap change before after) :
    Matches (slide place gap) change before after := by
  intro j
  have beyond := spread.beyond
  have length : ((before.toList.take (place + 1)).map (List.map change)).length = place + 1 := by
    simp only [List.length_map, List.length_take, Array.length_toList]
    omega
  rw [← Array.getElem?_toList, ← Array.getElem?_toList, spread.columns, List.append_assoc]
  by_cases early : j ≤ place
  · rw [slide_of_le early, List.getElem?_append_left (by omega), List.getElem?_map,
      List.getElem?_take_of_lt (by omega)]
    cases before.toList[j]? <;> rfl
  · rw [slide_of_lt (by omega), List.getElem?_append_right (by omega), length,
      List.getElem?_append_right (by rw [List.length_replicate]; omega), List.length_replicate,
      List.getElem?_map, List.getElem?_drop, show place + 1 + (j + gap - (place + 1) - gap) = j by
        omega]
    cases before.toList[j]? <;> rfl

/-- Nothing is lost or gained. -/
theorem total (spread : Spread place gap change before after) (start : Nat) :
    after.foldl (fun n column => n + column.length) start =
      before.foldl (fun n column => n + column.length) start := by
  have empty : ∀ (gap start : Nat), (List.replicate gap ([] : List α)).foldl
      (fun n column => n + column.length) start = start := by
    intro gap
    induction gap with
    | zero => exact fun _ => rfl
    | succ gap ih => exact fun start => ih start
  rw [← Array.foldl_toList, ← Array.foldl_toList, spread.columns, List.foldl_append,
    List.foldl_append, empty, List.foldl_map, List.foldl_map]
  simp only [List.length_map]
  rw [← List.foldl_append, List.take_append_drop]

end Spread

/-- The second chart is the first one with the offsets behind a place moved on. -/
structure Slid (place gap : Nat) (c d : Chart) : Prop where
  columns : Spread place gap (Entry.relocate (slide place gap)) c.columns d.columns
  edges : Spread place gap (Edge.relocate (slide place gap)) c.edges d.edges
  column : d.column = c.column.map (Entry.relocate (slide place gap))
  scan : d.scan = c.scan.map (Entry.relocate (slide place gap))
  fresh : d.fresh = c.fresh.map (Edge.relocate (slide place gap))
  pending : d.pending = c.pending.map (Pending.relocate (slide place gap))

namespace Slid

variable {place gap : Nat} {c d : Chart}

theorem beyond (slid : Slid place gap c d) : place < c.offset := slid.columns.beyond

theorem offset (slid : Slid place gap c d) : d.offset = c.offset + gap := slid.columns.size

/-- The second chart has more room than the first for the work at an offset, but the first has
enough. -/
theorem close (slid : Slid place gap c d) (enough : c.closing.agenda = []) :
    Slid place gap c.close d.close := by
  have injective := slide_injective place gap
  have opening : d.opening = c.opening.relocate (slide place gap) := by
    simp [Chart.opening, Work.relocate, slid.column, slid.scan, slid.fresh, List.map_reverse]
  have offset : d.offset = slide place gap c.offset := by
    rw [slide_of_lt slid.beyond, slid.offset]
  have length : d.column.length = c.column.length := by rw [slid.column, List.length_map]
  have room : dotCount * (c.offset + 1) + c.column.length ≤
      dotCount * (d.offset + 1) + d.column.length := by
    have more := Nat.mul_le_mul_left dotCount (show c.offset + 1 ≤ d.offset + 1 by
      rw [slid.offset]; omega)
    omega
  have closing : d.closing = c.closing.relocate (slide place gap) := by
    unfold Chart.closing at enough ⊢
    rw [← Work.run_of_le enough room, opening, ← Work.run_relocate injective slid.columns.at_slide,
      offset]
  rw [Chart.close_eq, Chart.close_eq, closing]
  exact { slid with column := rfl, scan := rfl, fresh := rfl }

theorem add (slid : Slid place gap c d) (e : Entry) :
    Slid place gap (c.add e) (d.add (e.relocate (slide place gap))) := by
  have injective := slide_injective place gap
  unfold Chart.add
  rw [Entry.expectsToken_relocate]
  split
  · refine { slid with scan := ?_ }
    rw [slid.scan, addEntry_relocate injective]
  · refine { slid with column := ?_ }
    rw [slid.column, addEntry_relocate injective]

theorem record (slid : Slid place gap c d) (g : Edge) :
    Slid place gap { c with fresh := addEdge c.fresh g }
      { d with fresh := addEdge d.fresh (g.relocate (slide place gap)) } := by
  refine { slid with fresh := ?_ }
  rw [slid.fresh, addEdge_relocate (slide_injective place gap)]

theorem arrive (slid : Slid place gap c d) (stop : Nat) (p : Pending) :
    Slid place gap (c.arrive stop p)
      (d.arrive (slide place gap stop) (p.relocate (slide place gap))) := by
  obtain ⟨k, e, token⟩ := p
  unfold Pending.relocate
  cases token with
  | none =>
    rw [Chart.arrive_carried, Chart.arrive_carried]
    exact slid.add e
  | some t =>
    rw [Chart.arrive_token, Chart.arrive_token]
    exact (slid.record (e.over (.token t) stop).2).add (e.over (.token t) stop).1

theorem foldl (slid : Slid place gap c d) (stop : Nat) (ps : List Pending) :
    Slid place gap (ps.foldl (Chart.arrive stop) c)
      ((ps.map (Pending.relocate (slide place gap))).foldl (Chart.arrive (slide place gap stop))
        d) := by
  induction ps generalizing c d with
  | nil => exact slid
  | cons p rest ih => exact ih (slid.arrive stop p)

/-- Tokens found at a place that has been moved on end at places that have been moved on. -/
theorem tokens {text : List Char} (scan : d.scan = c.scan.map (Entry.relocate (slide place gap)))
    (stop : ∀ n, 0 < n → d.offset + n = slide place gap (c.offset + n)) :
    d.tokens text = (c.tokens text).map (Pending.relocate (slide place gap)) := by
  unfold Chart.tokens
  rw [scan, List.filterMap_map, List.map_filterMap]
  congr 1
  funext e
  rw [Function.comp_apply, Entry.next?_relocate]
  split
  · rename_i t expects
    cases found : t.match? text with
    | none => rfl
    | some n =>
      simp only [Option.map_some, stop n (match?_bounds found).1]
      rfl
  · rfl

theorem ahead (slid : Slid place gap c d) (text : List Char) :
    d.ahead text = (c.ahead text).map (Pending.relocate (slide place gap)) := by
  have stop : ∀ n, d.offset + n = slide place gap (c.offset + n) := by
    intro n
    rw [slide_of_lt (Nat.lt_add_right n slid.beyond), slid.offset]
    omega
  have skips : d.skips text = (c.skips text).map (Pending.relocate (slide place gap)) := by
    unfold Chart.skips
    split
    · rfl
    · rename_i n found
      rw [slid.scan, slid.column, List.filter_map, ← List.map_append, List.map_map, List.map_map,
        stop]
      rfl
  unfold Chart.ahead
  rw [slid.pending, tokens slid.scan fun n _ => stop n, skips, List.map_append, List.map_append]

/-- Charts that go on alike have slid apart once moved, if their columns and edges have. -/
theorem of_ahead {text : List Char}
    (columns : Spread place gap (Entry.relocate (slide place gap)) (c.columns.push c.column)
      (d.columns.push d.column))
    (edges : Spread place gap (Edge.relocate (slide place gap)) (c.edges.push c.fresh)
      (d.edges.push d.fresh))
    (stop : d.offset + 1 = slide place gap (c.offset + 1))
    (ahead : d.ahead text = (c.ahead text).map (Pending.relocate (slide place gap))) :
    Slid place gap (c.move text) (d.move text) := by
  have arriving : ∀ p : Pending,
      ((p.relocate (slide place gap)).stop == slide place gap (c.offset + 1)) =
        (p.stop == c.offset + 1) := by
    intro p
    refine Bool.eq_iff_iff.mpr ?_
    simp only [Pending.relocate, beq_iff_eq, (slide_injective place gap).eq_iff]
  have turned : Slid place gap (c.turned text) (d.turned text) := by
    refine ⟨columns, edges, rfl, rfl, rfl, ?_⟩
    change List.filter _ _ = List.map _ (List.filter _ _)
    rw [ahead, stop, List.filter_map]
    congr 2
    funext p
    exact congrArg not (arriving p)
  have here : (d.ahead text).filter (·.stop == d.offset + 1) =
      ((c.ahead text).filter (·.stop == c.offset + 1)).map
        (Pending.relocate (slide place gap)) := by
    rw [ahead, stop, List.filter_map]
    congr 2
    funext p
    exact arriving p
  rw [Chart.move_eq, Chart.move_eq, here, stop]
  exact turned.foldl _ _

theorem move (slid : Slid place gap c d) (text : List Char) :
    Slid place gap (c.move text) (d.move text) := by
  have columns := slid.columns.push c.column
  have edges := slid.edges.push c.fresh
  rw [← slid.column] at columns
  rw [← slid.fresh] at edges
  refine of_ahead columns edges ?_ (slid.ahead text)
  rw [slide_of_lt (Nat.lt_succ_of_lt slid.beyond), slid.offset]
  omega

/-- Charts with the same first reading, of which the offsets have been moved on, read the same. -/
theorem reading_of_spread
    (first : d.column.find? Entry.isReading =
      (c.column.find? Entry.isReading).map (Entry.relocate (slide place gap)))
    (edges : Spread place gap (Edge.relocate (slide place gap)) (c.edges.push c.fresh)
      (d.edges.push d.fresh)) :
    d.reading? = c.reading? := by
  unfold Chart.reading?
  simp only [first, edges.total]
  cases c.column.find? Entry.isReading with
  | none => rfl
  | some e =>
    change (e.node?.map (Node.relocate (slide place gap))).bind _ = e.node?.bind _
    cases e.node? with
    | none => rfl
    | some n =>
      exact congrArg some (trees_relocate (slide_injective place gap) edges.at_slide _ n)

theorem reading (slid : Slid place gap c d) : d.reading? = c.reading? := by
  have edges := slid.edges.push c.fresh
  rw [← slid.fresh] at edges
  refine reading_of_spread ?_ edges
  rw [slid.column, List.find?_map]
  congr 2
  funext e
  -- The first offset is never behind the place.
  have start : (slide place gap e.item.start == 0) = (e.item.start == 0) := by
    refine Bool.eq_iff_iff.mpr ?_
    rw [beq_iff_eq, beq_iff_eq]
    constructor
    · intro zero
      exact slide_injective place gap (zero.trans (slide_of_le (Nat.zero_le place)).symm)
    · intro zero
      rw [zero]
      exact slide_of_le (Nat.zero_le place)
  simp only [Function.comp_apply, Entry.isReading, Entry.rule_relocate, Entry.next?_relocate,
    Entry.start_relocate, start]

/-- Where the rest of two texts is the same, charts that have slid apart go on alike. -/
theorem opened {text other : List Char} {k : Nat}
    (slid : Slid place gap (opened text k) (opened other (k + gap)))
    (same : text.drop k = other.drop (k + gap)) (n : Nat) :
    Slid place gap (Grammar.opened text (k + n)) (Grammar.opened other (k + n + gap)) := by
  induction n with
  | zero => exact slid
  | succ n ih =>
    have ahead : text.drop (k + n) = other.drop (k + n + gap) := by
      rw [← List.drop_drop, same, List.drop_drop, Nat.add_right_comm]
    have enough := ((opened_backed text (k + n)).closing (nodup_opened text (k + n))).1
    rw [show k + (n + 1) + gap = k + n + gap + 1 by omega]
    change Slid place gap ((Grammar.opened text (k + n)).close.move (text.drop (k + n)))
      ((Grammar.opened other (k + n + gap)).close.move (other.drop (k + n + gap)))
    rw [← ahead]
    exact (ih.close enough).move _

theorem closed {text other : List Char} {k : Nat}
    (slid : Slid place gap (Grammar.opened text k) (Grammar.opened other (k + gap)))
    (same : text.drop k = other.drop (k + gap)) (n : Nat) :
    Slid place gap (Grammar.closed text (k + n)) (Grammar.closed other (k + n + gap)) :=
  (slid.opened same n).close ((opened_backed text _).closing (nodup_opened text _)).1

end Slid

end SolidGeometry.Grammar
