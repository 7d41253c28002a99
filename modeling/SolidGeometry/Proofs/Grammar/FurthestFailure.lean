import SolidGeometry.Proofs.Grammar.Completeness
import SolidGeometry.Proofs.Grammar.Crossing
import SolidGeometry.Proofs.Grammar.Viability

/-! Where a text without a reading is at fault. The chart gives up behind the furthest offset to
which the first tokens of a sentence lead: an entry that stands there shows that the offset is
reachable, and whatever leads further would have left an entry further on. -/
namespace SolidGeometry.Grammar

variable {text : List Char} {k p q : Nat}

theorem Reachable.le_length (reachable : Reachable text q) : q ≤ text.length := by
  obtain ⟨tokens, along, _⟩ := reachable
  exact along.within (Nat.zero_le _)

/-- Whatever can be reached has an item where it ends, or behind the separators there. -/
theorem Reachable.exists_item (reachable : Reachable text q) :
    ∃ j, q ≤ j ∧ ∃ i, (closed text j).Has i := by
  have inside := reachable.le_length
  obtain ⟨tokens, along, d, front⟩ := reachable
  have cut : Cut text tokens (skip (text.drop q)) := along.cut
  obtain ⟨j, within, behind, i, has⟩ := d.exists_item front cut
  refine ⟨j, ?_, i, has⟩
  have shorter := length_skip (text.drop q)
  rw [← behind, List.length_drop, List.length_drop] at shorter
  omega

/-- Nothing can be reached from which no reading goes on. -/
theorem Reachable.lt_of_isStuck (reachable : Reachable text q)
    (stuck : (opened text k).isStuck = true) : q < k := by
  refine Nat.lt_of_not_le fun beyond => ?_
  obtain ⟨j, further, i, has⟩ := reachable.exists_item
  have goes := not_isStuck_of_has has
  rw [isStuck_of_le stuck (Nat.le_trans beyond further)] at goes
  cases goes

/-- Where a reading goes on, an entry shows what has been reached, or entries are on their way. -/
theorem reachable_or_pending (goes : (opened text k).isStuck = false) :
    Reachable text k ∨ (opened text k).column = [] ∧ ∃ p, p ∈ (opened text k).pending := by
  have viable := opened_viable text k
  cases column : (opened text k).column with
  | cons e rest => exact .inl (viable.column e (by simp [column])).reachable
  | nil =>
    cases scan : (opened text k).scan with
    | cons e rest => exact .inl (viable.scan e (by simp [scan])).reachable
    | nil =>
      cases pending : (opened text k).pending with
      | cons p rest => exact .inr ⟨rfl, p, List.mem_cons_self ..⟩
      | nil =>
        rw [Chart.isStuck, column, scan, pending] at goes
        cases goes

/-- Nothing is on its way to where no reading goes on, so the last offset before is reachable. -/
theorem reachable_of_last (goes : (opened text k).isStuck = false)
    (stuck : (opened text (k + 1)).isStuck = true) : Reachable text k := by
  rcases reachable_or_pending goes with reachable | ⟨empty, p, waits⟩
  · exact reachable
  · have idle : closed text k = opened text k := close_of_column_nil empty
    have ahead : p ∈ (closed text k).ahead (text.drop k) :=
      List.mem_append_left _ (List.mem_append_left _ (idle ▸ waits))
    rcases Chart.has_move_or_mem_pending ahead with ⟨_, arrived⟩ | still
    · have onward := not_isStuck_of_has (has_closed (k := k + 1) arrived)
      rw [stuck] at onward
      cases onward
    · simp only [Chart.isStuck, Bool.and_eq_true, List.isEmpty_iff] at stuck
      have none : p ∈ ([] : List Pending) := stuck.2 ▸ still
      cases none

/-- At the end of a text nothing is on its way any more. -/
theorem reachable_length (goes : (opened text text.length).isStuck = false) :
    Reachable text text.length := by
  rcases reachable_or_pending goes with reachable | ⟨_, p, waits⟩
  · exact reachable
  · have none : p ∈ ([] : List Pending) := pending_closed_length text ▸ waits
    cases none

/-- A text that cannot be read is at fault behind the furthest offset that can be reached: if that
is its end, more would have to follow, and otherwise nothing that can follow stands there. -/
theorem readTrimmed_furthest {e : SyntaxError} (rejected : readTrimmed text = .error e) :
    ∃ p, IsGreatest {q | Reachable text q} p ∧
      (p = text.length ∧ e = .unexpectedEnd text ∨ p < text.length ∧ e = .unexpected text p) := by
  unfold readTrimmed at rejected
  rcases advance_cases text with ⟨advanced, goes⟩ | ⟨p, inside, failed, goes, stuck⟩
  · rw [advanced] at rejected
    refine ⟨text.length, ⟨reachable_length goes, fun q reachable => reachable.le_length⟩,
      .inl ⟨rfl, ?_⟩⟩
    dsimp only at rejected
    split at rejected
    · cases rejected
    · exact (Except.error.inj rejected).symm
  · rw [failed] at rejected
    refine ⟨p, ⟨reachable_of_last goes stuck, fun q reachable => ?_⟩,
      .inr ⟨inside, (Except.error.inj rejected).symm⟩⟩
    exact Nat.le_of_lt_succ (reachable.lt_of_isStuck stuck)

/-- All that can be reached is on the first line. -/
theorem Reachable.not_mem_take (reachable : Reachable text p) : '\n' ∉ text.take p := by
  obtain ⟨tokens, along, _⟩ := reachable
  intro member
  obtain ⟨m, bound, newline⟩ := List.mem_take_iff_getElem.mp member
  refine along.one_line m (Nat.zero_le m) (by omega) ?_
  rw [List.getElem?_eq_getElem (by omega), newline]

theorem Reachable.lineNumber (reachable : Reachable text p) : lineNumber text p = 1 := by
  rw [Grammar.lineNumber, List.count_eq_zero.mpr reachable.not_mem_take]

theorem Reachable.columnNumber (reachable : Reachable text p) : columnNumber text p = p + 1 := by
  have whole : (text.take p).reverse.takeWhile (· != '\n') = (text.take p).reverse := by
    refine List.takeWhile_eq_self_iff.mpr fun c member => bne_iff_ne.mpr ?_
    rintro rfl
    exact reachable.not_mem_take (List.mem_reverse.mp member)
  rw [Grammar.columnNumber, whole, List.length_reverse, List.length_take_of_le reachable.le_length]

theorem Reachable.message (reachable : Reachable text p) :
    (SyntaxError.unexpected text p).message =
      s!"Syntax error at line 1, column {p + 1}:\n" ++ String.ofList (context text p) := by
  have front : "Syntax error at line " ++ toString 1 ++ ", column " =
      "Syntax error at line 1, column " := rfl
  unfold SyntaxError.message
  dsimp only
  rw [reachable.lineNumber, reachable.columnNumber]
  exact congrArg (· ++ toString (p + 1) ++ ":\n" ++ String.ofList (context text p)) front

/-- The error of a text that cannot be read points at the furthest offset to which the first tokens
of a sentence lead. At the end of the text it says that more has to follow; before the end it gives
the offset as a column of the first line. -/
theorem read_error_furthest (text : String) (e : SyntaxError) (rejected : read text = .error e) :
    let source := Text.trim text.toList
    ∃ p, IsGreatest {q | Reachable source q} p ∧
      (p = source.length ∧ e = .unexpectedEnd source ∧
          e.message = "Unexpected end of input: " ++ Text.quoted (String.ofList source) ∨
        p < source.length ∧ e = .unexpected source p ∧
          lineNumber source p = 1 ∧ columnNumber source p = p + 1 ∧
          e.message = s!"Syntax error at line 1, column {p + 1}:\n" ++
            String.ofList (context source p)) := by
  intro source
  have failed : readTrimmed source = .error e := rejected
  obtain ⟨p, furthest, found⟩ := readTrimmed_furthest failed
  have reached : Reachable source p := furthest.1
  refine ⟨p, furthest, found.imp ?_ ?_⟩
  · rintro ⟨last, rfl⟩
    exact ⟨last, rfl, rfl⟩
  · rintro ⟨inside, rfl⟩
    exact ⟨inside, rfl, reached.lineNumber, reached.columnNumber, reached.message⟩

/-- A letter in the place of a coordinate is at fault, and a vector of two coordinates is so where
it ends. -/
theorem read_error_furthest_coordinates :
    IsGreatest {q | Reachable "cross 1 0 0, 0 1 q".toList q} 17 ∧
      IsGreatest {q | Reachable "length 1 2".toList q} 10 := by
  have rejected : ∀ (text : String) (e : SyntaxError),
      (match read text with | .error e => some e | .ok _ => none) = some e →
        read text = .error e := by
    intro text e same
    split at same
    · rename_i failed
      rw [failed, Option.some.inj same]
    · cases same
  constructor
  · have solid : Text.trim "cross 1 0 0, 0 1 q".toList = "cross 1 0 0, 0 1 q".toList := by
      decide +kernel
    obtain ⟨p, furthest, ⟨_, other, _⟩ | ⟨_, same, _⟩⟩ := read_error_furthest
      "cross 1 0 0, 0 1 q" (.unexpected "cross 1 0 0, 0 1 q".toList 17)
      (rejected _ _ (by decide +kernel))
    · cases other
    · rw [solid] at furthest
      exact (SyntaxError.unexpected.inj same).2 ▸ furthest
  · have solid : Text.trim "length 1 2".toList = "length 1 2".toList := by decide +kernel
    have size : "length 1 2".toList.length = 10 := by decide +kernel
    obtain ⟨p, furthest, ⟨last, _⟩ | ⟨_, other, _⟩⟩ := read_error_furthest
      "length 1 2" (.unexpectedEnd "length 1 2".toList) (rejected _ _ (by decide +kernel))
    · rwa [last, solid, size] at furthest
    · cases other

end SolidGeometry.Grammar
