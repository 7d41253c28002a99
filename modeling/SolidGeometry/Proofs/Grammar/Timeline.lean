import SolidGeometry.Proofs.Grammar.Arrival

namespace SolidGeometry.Grammar

variable {text : List Char} {k : Nat}

/-- The chart at an offset, before the work there. -/
def opened (text : List Char) : Nat → Chart
  | 0 => .initial
  | k + 1 => (opened text k).close.move (text.drop k)

/-- The chart at an offset, all work there done. -/
def closed (text : List Char) (k : Nat) : Chart := (opened text k).close

theorem opened_succ (text : List Char) (k : Nat) :
    opened text (k + 1) = (closed text k).move (text.drop k) := rfl

theorem nodup_opened (text : List Char) (k : Nat) :
    ((opened text k).column.map Entry.item).Nodup := by
  cases k with
  | zero =>
    change (Chart.initial.column.map Entry.item).Nodup
    decide +kernel
  | succ k => exact nodup_move _ _

private theorem initial_backed (text : List Char) : Chart.initial.Backed text 0 := by
  have predicted : ∀ e ∈ Nonterminal.start.predictions.map
      (fun r => (⟨⟨0, 0, r⟩, none⟩ : Entry)), e.Backed text Chart.initial.allEdges 0 := by
    intro e member
    obtain ⟨r, listed, rfl⟩ := List.mem_map.mp member
    exact .predicted listed
  refine ⟨rfl, rfl, ?_, ?_, ?_, ?_, ?_, ?_⟩
  · intro j o member
    simp [Chart.initial] at member
  · intro j g member
    simp [Chart.initial] at member
  · exact fun e member => predicted e (List.mem_filter.mp member).1
  · exact fun e member => predicted e (List.mem_filter.mp member).1
  · intro g member
    cases member
  · intro p member
    cases member

theorem opened_backed (text : List Char) (k : Nat) : (opened text k).Backed text k := by
  induction k with
  | zero => exact initial_backed text
  | succ k ih => exact (ih.close (nodup_opened text k)).move

theorem closed_backed (text : List Char) (k : Nat) : (closed text k).Backed text k :=
  (opened_backed text k).close (nodup_opened text k)

theorem offset_closed (text : List Char) (k : Nat) : (closed text k).offset = k :=
  (closed_backed text k).columnsSize

theorem columns_opened_succ (text : List Char) (k : Nat) :
    (opened text (k + 1)).columns = (opened text k).columns.push (closed text k).column :=
  (Chart.joined_move _ _).columns

theorem getElem?_columns {j : Nat} (earlier : j < k) :
    (opened text k).columns[j]? = some (closed text j).column := by
  induction k with
  | zero => omega
  | succ k ih =>
    rw [columns_opened_succ, Array.getElem?_push, (opened_backed text k).columnsSize]
    split
    · rename_i last
      rw [last]
    · exact ih (by omega)

theorem has_closed {i : Item} (has : (opened text k).Has i) : (closed text k).Has i := by
  obtain ⟨_, ended, _⟩ := (opened_backed text k).closing (nodup_opened text k)
  obtain ⟨e, member, same⟩ := has
  refine ⟨e, ?_, same⟩
  split
  · rename_i token
    rw [if_pos token] at member
    exact ended.scan e member
  · rename_i token
    rw [if_neg token] at member
    exact ended.column e member

private theorem done_closed {e : Entry} (member : e ∈ (closed text k).column) :
    (opened text k).closing.Done (opened text k).columns k e := by
  obtain ⟨empty, _, settled⟩ := (opened_backed text k).closing (nodup_opened text k)
  rcases settled e member with waiting | done
  · rw [empty] at waiting
    cases waiting
  · exact done

/-- An item that expects a nonterminal or nothing is in the column. -/
theorem Stored.mem_column {column scan : List Entry} {i : Item} (stored : Stored column scan i)
    (other : i.expectsToken = false) : ∃ e ∈ column, e.item = i := by
  unfold Stored at stored
  rw [other] at stored
  exact stored

theorem Stored.mem_scan {column scan : List Entry} {i : Item} (stored : Stored column scan i)
    (token : i.expectsToken = true) : ∃ e ∈ scan, e.item = i := by
  unfold Stored at stored
  rw [token] at stored
  exact stored

theorem expectsToken_of_terminal {i : Item} {t : Terminal}
    (expects : i.next? = some (.terminal t)) : i.expectsToken = true := by
  simp [Item.expectsToken, expects]

theorem expectsToken_of_nonterminal {i : Item} {n : Nonterminal}
    (expects : i.next? = some (.nonterminal n)) : i.expectsToken = false := by
  simp [Item.expectsToken, expects]

theorem expectsToken_of_finished {i : Item} (finished : i.next? = none) :
    i.expectsToken = false := by
  simp [Item.expectsToken, finished]

theorem closed_predicts {i : Item} {n : Nonterminal} {r : Rule} (has : (closed text k).Has i)
    (expects : i.next? = some (.nonterminal n)) (member : r ∈ n.rules) :
    (closed text k).Has ⟨k, 0, r⟩ := by
  obtain ⟨e, present, rfl⟩ := has.mem_column (expectsToken_of_nonterminal expects)
  exact (done_closed present).predicted n expects r member

/-- A finished item moves on all items that expected it where it begins. -/
theorem closed_completes {i o : Item} (has : (closed text k).Has i) (finished : i.next? = none)
    (waiting : (closed text i.start).Has o)
    (expects : o.next? = some (.nonterminal i.rule.origin)) :
    (closed text k).Has o.advance := by
  obtain ⟨e, present, rfl⟩ := has.mem_column (expectsToken_of_finished finished)
  obtain ⟨p, stored, rfl⟩ := waiting.mem_column (expectsToken_of_nonterminal expects)
  have done := done_closed present
  have start : e.item.start ≤ k := ((closed_backed text k).column e present).start
  by_cases here : e.item.start = k
  · rw [here] at stored
    rcases done.movedHere finished here p stored expects with agenda | moved
    · obtain ⟨empty, _⟩ := (opened_backed text k).closing (nodup_opened text k)
      rw [empty] at agenda
      cases agenda
    · exact moved
  · refine done.moved finished here p ?_ expects
    rw [getElem?_columns (by omega)]
    exact stored

theorem pending_later (text : List Char) (k : Nat) :
    ∀ p ∈ (opened text k).pending, k < p.stop := by
  induction k with
  | zero =>
    intro p member
    cases member
  | succ k ih =>
    intro p member
    rw [opened_succ, (Chart.joined_move _ _).pending] at member
    obtain ⟨ahead, other⟩ := List.mem_filter.mp member
    have later : (closed text k).offset < p.stop :=
      stop_of_mem_ahead (by rw [offset_closed]; exact ih) ahead
    rw [offset_closed] at later other
    have apart : p.stop ≠ k + 1 := by simpa using other
    omega

/-- What is pending arrives. -/
private theorem has_of_pending {p : Pending} (member : p ∈ (opened text k).pending) :
    (opened text p.stop).Has p.item := by
  obtain ⟨m, stop⟩ := Nat.exists_eq_add_of_lt (pending_later text k p member)
  induction m generalizing k with
  | zero =>
    have ahead : p ∈ (closed text k).ahead (text.drop k) :=
      List.mem_append_left _ (List.mem_append_left _ member)
    rcases Chart.has_move_or_mem_pending ahead with ⟨next, arrived⟩ | waits
    · rw [offset_closed] at next
      rw [next, opened_succ]
      exact arrived
    · have later := pending_later text (k + 1) p waits
      omega
  | succ m ih =>
    have ahead : p ∈ (closed text k).ahead (text.drop k) :=
      List.mem_append_left _ (List.mem_append_left _ member)
    rcases Chart.has_move_or_mem_pending ahead with ⟨next, _⟩ | waits
    · rw [offset_closed] at next
      omega
    · exact ih (k := k + 1) waits (by omega)

/-- What goes on arrives. -/
theorem closed_ahead {p : Pending} (ahead : p ∈ (closed text k).ahead (text.drop k)) :
    (closed text p.stop).Has p.item := by
  rcases Chart.has_move_or_mem_pending ahead with ⟨next, arrived⟩ | waits
  · rw [offset_closed] at next
    rw [next]
    exact has_closed arrived
  · exact has_closed (has_of_pending (k := k + 1) waits)

theorem closed_token {i : Item} {t : Terminal} {n : Nat} (has : (closed text k).Has i)
    (expects : i.next? = some (.terminal t)) (found : t.match? (text.drop k) = some n) :
    (closed text (k + n)).Has i.advance := by
  obtain ⟨e, present, rfl⟩ := has.mem_scan (expectsToken_of_terminal expects)
  have ahead : (⟨k + n, e, some ⟨t, (text.drop k).take n⟩⟩ : Pending) ∈
      (closed text k).ahead (text.drop k) := by
    refine List.mem_append_left _ (List.mem_append_right _ ?_)
    refine List.mem_filterMap.mpr ⟨e, present, ?_⟩
    rw [expects, offset_closed]
    simp [found]
  exact closed_ahead ahead

theorem closed_skip {i : Item} {n : Nat} (has : (closed text k).Has i)
    (goes : i.expectsToken = true ∨ i.rule.origin = .start ∧ i.next? = none)
    (found : separators? (text.drop k) = some n) : (closed text (k + n)).Has i := by
  have ahead : ∀ e ∈ (closed text k).scan ++ (closed text k).column.filter
      (fun e => e.item.rule.origin == .start && e.item.next? == none),
      (⟨k + n, e, none⟩ : Pending) ∈ (closed text k).ahead (text.drop k) := by
    intro e present
    refine List.mem_append_right _ ?_
    unfold Chart.skips
    rw [found, offset_closed]
    exact List.mem_map.mpr ⟨e, present, rfl⟩
  rcases goes with token | ⟨origin, finished⟩
  · obtain ⟨e, present, rfl⟩ := has.mem_scan token
    exact closed_ahead (ahead e (List.mem_append_left _ present))
  · obtain ⟨e, present, rfl⟩ := has.mem_column (expectsToken_of_finished finished)
    refine closed_ahead (ahead e (List.mem_append_right _ (List.mem_filter.mpr ⟨present, ?_⟩)))
    simp [origin, finished]

theorem closed_starts {r : Rule} (member : r ∈ Nonterminal.start.rules) :
    (closed text 0).Has ⟨0, 0, r⟩ := by
  have listed : (⟨⟨0, 0, r⟩, none⟩ : Entry) ∈ Nonterminal.start.predictions.map
      (fun r => (⟨⟨0, 0, r⟩, none⟩ : Entry)) :=
    List.mem_map.mpr ⟨r, mem_predictions member, rfl⟩
  refine has_closed ⟨⟨⟨0, 0, r⟩, none⟩, ?_, rfl⟩
  change _ ∈ if (⟨⟨0, 0, r⟩, none⟩ : Entry).expectsToken then _ else _
  split
  · rename_i token
    exact List.mem_filter.mpr ⟨listed, token⟩
  · rename_i token
    exact List.mem_filter.mpr ⟨listed, by simpa using token⟩

/-- Where no entry is, there is nothing to find. -/
theorem close_of_column_nil {c : Chart} (empty : c.column = []) : c.close = c := by
  have idle : ∀ bound, c.opening.run c.columns c.offset bound = c.opening := by
    intro bound
    cases bound with
    | zero => rfl
    | succ bound =>
      unfold Work.run
      simp [Chart.opening, empty]
  rw [Chart.close_eq, Chart.closing, idle]
  rfl

theorem closed_eq_of_isStuck (stuck : (opened text k).isStuck = true) :
    closed text k = opened text k := by
  simp only [Chart.isStuck, Bool.and_eq_true, List.isEmpty_iff] at stuck
  exact close_of_column_nil stuck.1.1

/-- Where no reading goes on, none goes on any later. -/
theorem isStuck_succ (stuck : (opened text k).isStuck = true) :
    (opened text (k + 1)).isStuck = true := by
  rw [opened_succ, closed_eq_of_isStuck stuck, Chart.move_eq]
  simp only [Chart.isStuck, Bool.and_eq_true, List.isEmpty_iff] at stuck ⊢
  obtain ⟨⟨column, scan⟩, pending⟩ := stuck
  have none : (opened text k).ahead (text.drop k) = [] := by
    simp [Chart.ahead, Chart.tokens, Chart.skips, column, scan, pending]
    split <;> rfl
  simp [Chart.turned, none]

theorem isStuck_of_le {m : Nat} (stuck : (opened text k).isStuck = true) (later : k ≤ m) :
    (opened text m).isStuck = true := by
  induction m, later using Nat.le_induction with
  | base => exact stuck
  | succ m _ ih => exact isStuck_succ ih

theorem column_of_isStuck {m : Nat} (stuck : (opened text k).isStuck = true) (later : k ≤ m) :
    (closed text m).column = [] := by
  have all := isStuck_of_le stuck later
  rw [closed_eq_of_isStuck all]
  simp only [Chart.isStuck, Bool.and_eq_true, List.isEmpty_iff] at all
  exact all.1.1

/-- Where no reading goes on, no item is found. -/
theorem not_isStuck_of_has {m : Nat} {i : Item} (has : (closed text m).Has i) :
    (opened text m).isStuck = false := by
  refine Bool.eq_false_iff.mpr fun stuck => ?_
  rw [closed_eq_of_isStuck stuck] at has
  simp only [Chart.isStuck, Bool.and_eq_true, List.isEmpty_iff] at stuck
  obtain ⟨⟨column, scan⟩, _⟩ := stuck
  obtain ⟨e, member, _⟩ := has
  rw [column, scan, ite_self] at member
  cases member

/-- The chart is advanced to the end of the text, or to the last offset at which a reading goes
on. -/
theorem advance_cases (text : List Char) :
    (Chart.initial.advance text = .ok (closed text text.length) ∧
      (opened text text.length).isStuck = false) ∨
    ∃ p < text.length, Chart.initial.advance text = .error p ∧
      (opened text p).isStuck = false ∧ (opened text (p + 1)).isStuck = true := by
  have from_offset : ∀ (n k : Nat), k + n = text.length → (opened text k).isStuck = false →
      ((opened text k).advance (text.drop k) = .ok (closed text text.length) ∧
        (opened text text.length).isStuck = false) ∨
      ∃ p < text.length, (opened text k).advance (text.drop k) = .error p ∧
        (opened text p).isStuck = false ∧ (opened text (p + 1)).isStuck = true := by
    intro n
    induction n with
    | zero =>
      intro k last goes
      left
      rw [List.drop_of_length_le (by omega), ← last]
      exact ⟨rfl, goes⟩
    | succ n ih =>
      intro k inside goes
      have ahead : text.drop k = text[k] :: text.drop (k + 1) :=
        List.drop_eq_getElem_cons (by omega)
      have next : (closed text k).move (text[k] :: text.drop (k + 1)) = opened text (k + 1) := by
        rw [← ahead, opened_succ]
      have step : (opened text k).advance (text.drop k) =
          if (opened text (k + 1)).isStuck then .error (closed text k).offset
          else (opened text (k + 1)).advance (text.drop (k + 1)) := by
        rw [← next, ahead]
        rfl
      rw [step]
      split
      · rename_i stuck
        exact .inr ⟨k, by omega, by rw [offset_closed], goes, stuck⟩
      · rename_i goes
        exact ih (k + 1) (by omega) (by simpa using goes)
  have begins : Chart.initial.isStuck = false := by decide +kernel
  exact from_offset text.length 0 (by omega) begins

/-- The chart is advanced to the end of the text, or all later columns are empty. -/
theorem advance_eq (text : List Char) :
    Chart.initial.advance text = .ok (closed text text.length) ∨
      (∃ offset, Chart.initial.advance text = .error offset) ∧
        (closed text text.length).column = [] := by
  rcases advance_cases text with ⟨advanced, _⟩ | ⟨p, inside, failed, _, stuck⟩
  · exact .inl advanced
  · exact .inr ⟨⟨p, failed⟩, column_of_isStuck stuck inside⟩

end SolidGeometry.Grammar
