import SolidGeometry.Proofs.Grammar.FlatReading

/-! A derivation of a whole expression closes the brackets of all its vectors. Operands and calls
leave flat text flat, unless they leave something dead; so the brackets can be counted up to the end
of the text, where none are missing. -/
namespace SolidGeometry.Grammar.Canonical

variable {row : List Symbol} {text rest out : List Char}

/-- The symbols that are read where a call begins. -/
def isEntry : Symbol → Bool
  | .terminal t => heads.contains t
  | .nonterminal n => n == .call

/-- Rows that can stand in flat text: bare brackets around calls, something solid behind a name. -/
def Proper : List Symbol → Bool
  | [] => true
  | s :: row => Proper row &&
    match s with
    | .terminal .openNested => row.head? == some (.nonterminal .call)
    | .terminal .closeNested => !row.head?.any isEntry
    | .terminal t => heads.contains t && row.head?.any isSolid
    | .nonterminal n => n != .start && n != .link && !row.head?.any isEntry

/-- The brackets of calls in a row, closing ones less opening ones. -/
def weight : List Symbol → Int
  | [] => 0
  | .terminal .openNested :: row => weight row - 1
  | .terminal .closeNested :: row => weight row + 1
  | _ :: row => weight row

/-- The text at which a row begins. -/
def Enters (row : List Symbol) (text : List Char) : Prop :=
  if row.head?.any isEntry then Calling text else Flat text

theorem enters_calling (entry : row.head?.any isEntry = true) :
    Enters row text ↔ Calling text := by
  rw [Enters, if_pos entry]

theorem enters_flat (inside : row.head?.any isEntry = false) : Enters row text ↔ Flat text := by
  rw [Enters, inside, if_neg (by decide)]

theorem proper_tail {s : Symbol} (proper : Proper (s :: row) = true) : Proper row = true := by
  unfold Proper at proper
  exact (Bool.and_eq_true_iff.mp proper).1

/-- The rules for calls and operands are proper, begin like what they are for, and close all
brackets that they open. -/
theorem proper_rules {n : Nonterminal} {r : Rule} (member : r ∈ n.rules) (start : n ≠ .start)
    (link : n ≠ .link) (other : n ∉ simple) :
    Proper r.symbols = true ∧ weight r.symbols = 0 ∧
      r.symbols.head?.any isEntry = isEntry (.nonterminal n) := by
  revert r
  cases n <;> revert start link other <;> decide

theorem proper_token {t : Terminal} (proper : Proper (.terminal t :: row) = true) :
    (t = .openNested ∧ row.head? = some (.nonterminal .call)) ∨
      (t = .closeNested ∧ row.head?.any isEntry = false) ∨
        (t ∈ heads ∧ row.head?.any isSolid = true) := by
  have own := (Bool.and_eq_true_iff.mp proper).2
  split at own
  · rename_i same
    cases same
    exact .inl ⟨rfl, beq_iff_eq.mp own⟩
  · rename_i same
    cases same
    exact .inr (.inl ⟨rfl, (Bool.not_eq_eq_eq_not ..).mp own⟩)
  · rename_i same
    cases same
    obtain ⟨head, solid⟩ := Bool.and_eq_true_iff.mp own
    exact .inr (.inr ⟨List.contains_iff_mem.mp head, solid⟩)
  · rename_i same
    cases same

theorem proper_rule {n : Nonterminal} (proper : Proper (.nonterminal n :: row) = true) :
    n ≠ .start ∧ n ≠ .link ∧ row.head?.any isEntry = false := by
  simpa [Proper, and_assoc] using (Bool.and_eq_true_iff.mp proper).2

theorem not_isEntry {s : Symbol} (solid : isSolid s = true) : isEntry s = false := by
  cases s with
  | terminal t => revert solid; cases t <;> decide
  | nonterminal n => revert solid; cases n <;> decide

theorem not_isEntry_of_simple {n : Nonterminal} (listed : n ∈ simple) :
    isEntry (.nonterminal n) = false := by
  revert n
  decide

theorem weight_head {t : Terminal} (head : t ∈ heads) (row : List Symbol) :
    weight (.terminal t :: row) = weight row := by
  simp only [heads, List.mem_cons, List.not_mem_nil, or_false] at head
  rcases head with rfl | rfl | rfl | rfl | rfl | rfl | rfl | rfl <;> rfl

/-- Behind something dead nothing of a proper row can be read, unless the row begins with a call. -/
theorem dead_row {d : Derivation row} (proper : Proper row = true)
    (inside : row.head?.any isEntry = false) (dead : Dead text) (cut : Cut text d.tokens out) :
    Dead out := by
  cases d with
  | nil =>
    cases cut
    exact dead.skip
  | token t spelling later =>
    rcases proper_token proper with ⟨rfl, _⟩ | ⟨rfl, _⟩ | ⟨head, _⟩
    · exact absurd dead.startless (not_startless (.token .openNested spelling later) rfl
        (by decide) cut)
    · obtain ⟨c, more, ahead, other⟩ := dead.left
      refine absurd cut (not_read_token (d := .token .closeNested spelling later) ?_)
      rw [ahead]
      refine match?_of_not_begins more ?_
      simpa [Terminal.begins, Terminal.pattern] using other.symm
    · refine absurd inside (ne_false_of_eq_true ?_)
      exact List.contains_iff_mem.mpr head
  | @rule row n r member parts later =>
    obtain ⟨start, link, _⟩ := proper_rule proper
    have solid : isSolid (.nonterminal n) = true := by
      have call : n ≠ .call := by
        rintro rfl
        cases inside
      simp [isSolid, start, link, call]
    exact absurd dead.startless (not_startless (.rule r member parts later) rfl solid cut)

private theorem exists_match {t : Terminal} {w : List Char} {tokens : List Token}
    (cut : Cut text (⟨t, w⟩ :: tokens) out) :
    ∃ n, t.match? (skip text) = some n ∧ Cut ((skip text).drop n) tokens out := by
  cases cut with
  | cons found later => exact ⟨_, found, later⟩

private theorem match?_numeral (w : PlainNumeral) {t : Terminal}
    (bracket : t ∈ [Terminal.openNested, .closeNested]) (rest : List Char) :
    t.match? (w.text ++ rest) = none := by
  obtain ⟨c, more, shape, front⟩ := w.exists_cons
  rw [shape]
  refine match?_of_not_begins _ (Bool.eq_false_iff.mpr fun begins => ?_)
  simp only [List.mem_cons, List.not_mem_nil, or_false] at bracket
  rcases bracket with rfl | rfl <;>
    simp only [Terminal.begins, Terminal.pattern, List.any_cons, List.any_nil, Bool.or_false,
      beq_iff_eq] at begins <;>
    cases begins <;> exact absurd front (by decide)

/-- An opening bracket of a call is that of a call, or that of a vector, in which no call begins. -/
private theorem exists_opened (flat : Flat text) {w : List Char} {tokens : List Token}
    (cut : Cut text (⟨.openNested, w⟩ :: tokens) out) :
    ∃ middle, Cut middle tokens out ∧ (Calling middle ∧ excess text + 1 = excess middle ∨
      ∃ c more, skip middle = c :: more ∧ isLetter c = false) := by
  obtain ⟨n, found, later⟩ := exists_match cut
  induction flat with
  | nil => cases found.symm.trans (match?_nil .openNested)
  | blank _ ih => exact ih cut.past_blank found later
  | @vector rest v _ _ =>
    cases found
    obtain ⟨c, more, shape, front⟩ := v.x.exists_cons
    refine ⟨_, later, .inr ⟨c, _, (v.x.toNumeral.skip_append rfl).trans (by rw [shape]; rfl), ?_⟩⟩
    rcases front with digit | rfl
    · exact not_isLetter_of_isDigit digit
    · rfl
  | linked _ _ _ _ => cases found
  | plane a b c e _ _ =>
    rw [Literal.skip_write] at found
    cases found.symm.trans (match?_numeral a (by decide) _)
  | @nested rest head listed name behind _ =>
    cases found
    refine ⟨_, later, .inl ⟨.intro listed name behind, ?_⟩⟩
    exact (congrArg (· + 1) (excess_open _)).trans (Int.sub_add_cancel _ 1)
  | close _ _ => cases found
  | number t closes _ _ =>
    rw [t.toNumeral.skip_append closes.ends] at found
    cases found.symm.trans (match?_numeral t (by decide) _)
  | numbers s t _ _ _ =>
    rw [s.toNumeral.skip_append rfl] at found
    cases found.symm.trans (match?_numeral s (by decide) _)

private theorem exists_closed (flat : Flat text) {w : List Char} {tokens : List Token}
    (cut : Cut text (⟨.closeNested, w⟩ :: tokens) out) :
    ∃ middle, Cut middle tokens out ∧ Flat middle ∧ excess text = excess middle + 1 := by
  obtain ⟨n, found, later⟩ := exists_match cut
  induction flat with
  | nil => cases found.symm.trans (match?_nil .closeNested)
  | blank _ ih => exact ih cut.past_blank found later
  | vector _ _ _ => cases found
  | linked _ _ _ _ => cases found
  | plane a b c e _ _ =>
    rw [Literal.skip_write] at found
    cases found.symm.trans (match?_numeral a (by decide) _)
  | nested _ _ _ _ => cases found
  | close behind _ =>
    cases found
    exact ⟨_, later, behind, excess_close _⟩
  | number t closes _ _ =>
    rw [t.toNumeral.skip_append closes.ends] at found
    cases found.symm.trans (match?_numeral t (by decide) _)
  | numbers s t _ _ _ =>
    rw [s.toNumeral.skip_append rfl] at found
    cases found.symm.trans (match?_numeral s (by decide) _)

/-- Where a call begins, a token of its kind reads its whole name, or one goes wrong that
nothing solid can follow. -/
private theorem exists_named (calling : Calling text) {t : Terminal} (head : t ∈ heads)
    {w : List Char} {tokens : List Token} (cut : Cut text (⟨t, w⟩ :: tokens) out) :
    ∃ middle, Cut middle tokens out ∧ (Flat middle ∧ excess text = excess middle ∨
      Startless middle) := by
  obtain ⟨n, found, later⟩ := exists_match cut
  obtain @⟨rest, own, listed, name, flat⟩ := calling
  rw [name.skip_append listed] at found later
  rw [match?_name listed head] at found
  split at found
  · cases found
    rw [List.drop_left] at later
    exact ⟨_, later, .inl ⟨.blank flat, excess_name listed name _⟩⟩
  · split at found
    · rename_i normalize
      cases found
      rw [normalize.2] at later
      exact ⟨_, later, .inr (.of_begins rfl (by decide))⟩
    · cases found

/-- A derivation leaves flat text, where the brackets tell how many vectors it has left open, or
something dead. -/
def Balances (d : Derivation row) (text out : List Char) : Prop :=
  Dead out ∨ Flat out ∧ excess text + unclosed d = weight row + excess out

theorem Balances.of_later {more : List Symbol} {d : Derivation more} {e : Derivation row}
    {middle : List Char} (left : Balances d middle out)
    (same : excess text + unclosed e - weight row = excess middle + unclosed d - weight more) :
    Balances e text out := by
  rcases left with dead | ⟨flat, balance⟩
  · exact .inl dead
  · exact .inr ⟨flat, by omega⟩

private theorem balances_opened {spelling : List Char} {later : Derivation row}
    (ih : ∀ {middle : List Char}, Enters row middle → Cut middle later.tokens out →
      Balances later middle out)
    (call : row.head? = some (.nonterminal .call)) (flat : Flat text)
    (cut : Cut text (⟨.openNested, spelling⟩ :: later.tokens) out) :
    Balances (.token .openNested spelling later) text out := by
  obtain ⟨middle, behind, ⟨calling, same⟩ | ⟨c, more, ahead, letterless⟩⟩ := exists_opened flat cut
  · have entered : Enters row middle := (enters_calling (by rw [call]; rfl)).mpr calling
    refine (ih entered behind).of_later ?_
    simp only [unclosed, weight]
    omega
  -- The bracket was that of a vector, in which no call can be read.
  · cases row with
    | nil => cases call
    | cons s more =>
      cases call
      exact absurd behind (not_read_call ahead letterless)

private theorem balances_closed {spelling : List Char} {later : Derivation row}
    (ih : ∀ {middle : List Char}, Enters row middle → Cut middle later.tokens out →
      Balances later middle out)
    (inside : row.head?.any isEntry = false) (flat : Flat text)
    (cut : Cut text (⟨.closeNested, spelling⟩ :: later.tokens) out) :
    Balances (.token .closeNested spelling later) text out := by
  obtain ⟨middle, behind, flat, same⟩ := exists_closed flat cut
  refine (ih ((enters_flat inside).mpr flat) behind).of_later ?_
  simp only [unclosed, weight]
  omega

private theorem balances_named {t : Terminal} {spelling : List Char} {later : Derivation row}
    (ih : ∀ {middle : List Char}, Enters row middle → Cut middle later.tokens out →
      Balances later middle out)
    (head : t ∈ heads) (solid : row.head?.any isSolid = true) (calling : Calling text)
    (cut : Cut text (⟨t, spelling⟩ :: later.tokens) out) :
    Balances (.token t spelling later) text out := by
  obtain ⟨s, front, solid⟩ := (Option.any_eq_true ..).mp solid
  obtain ⟨middle, behind, ⟨flat, same⟩ | startless⟩ := exists_named calling head cut
  · have inside : row.head?.any isEntry = false := by
      rw [front]
      exact not_isEntry solid
    refine (ih ((enters_flat inside).mpr flat) behind).of_later ?_
    rw [weight_head head, unclosed, same]
  · exact absurd startless (not_startless later front solid behind)

/-- A rule balances where its parts do, and vectors and numbers do in any flat text. -/
private theorem balances_rule {n : Nonterminal} {r : Rule} (member : r ∈ n.rules)
    {parts : Derivation r.symbols}
    (ih : Proper r.symbols = true → Enters r.symbols text → Balances parts text out)
    (start : n ≠ .start) (link : n ≠ .link) (enters : Enters (.nonterminal n :: row) text)
    (cut : Cut text parts.tokens out) :
    Dead out ∨ Flat out ∧
      excess text + unclosed (.rule r member parts .nil : Derivation [.nonterminal n]) =
        excess out := by
  by_cases listed : n ∈ simple
  · have front : (Symbol.nonterminal n :: row).head?.any isEntry = false :=
      not_isEntry_of_simple listed
    refine flat_simple listed ((enters_flat front).mp enters) ?_
    simpa [Derivation.tokens] using cut
  · obtain ⟨proper, balanced, entry⟩ := proper_rules member start link listed
    have entered : Enters r.symbols text := by
      rw [Enters, entry]
      exact enters
    have own : unclosed (.rule r member parts .nil : Derivation [.nonterminal n]) =
        unclosed parts := by
      have other : n ≠ .vector := by
        rintro rfl
        exact listed (by decide)
      simp [unclosed, other]
    have left := ih proper entered
    rwa [Balances, balanced, Int.zero_add, ← own] at left

/-- Whatever a derivation makes of flat text, it balances. -/
theorem balances_of_proper {row : List Symbol} (d : Derivation row) (proper : Proper row = true)
    (enters : Enters row text) (cut : Cut text d.tokens out) : Balances d text out := by
  induction d generalizing text out with
  | nil =>
    cases cut
    exact .inr ⟨Flat.skip enters, by simp [unclosed, weight]⟩
  | @token row t spelling later ih =>
    have behind {middle : List Char} := @ih middle out (proper_tail proper)
    rcases proper_token proper with ⟨rfl, call⟩ | ⟨rfl, inside⟩ | ⟨head, solid⟩
    · exact balances_opened behind call enters cut
    · exact balances_closed behind inside enters cut
    · have entry : (Symbol.terminal t :: row).head?.any isEntry = true :=
        List.contains_iff_mem.mpr head
      exact balances_named behind head solid ((enters_calling entry).mp enters) cut
  | @rule row n r member parts later parts_ih later_ih =>
    obtain ⟨start, link, inside⟩ := proper_rule proper
    have others := proper_tail proper
    obtain ⟨middle, inner, outer⟩ := cut.split
    have front := balances_rule member (fun proper entered => parts_ih proper entered inner) start
      link enters inner
    rcases front with dead | ⟨flat, balance⟩
    · exact .inl (dead_row others inside dead outer)
    · refine (later_ih others ((enters_flat inside).mpr flat) outer).of_later ?_
      simp only [unclosed, weight] at balance ⊢
      omega

theorem symbols_start {r : Rule} (member : r ∈ Nonterminal.start.rules) :
    r.symbols = [.nonterminal .call] ∨ r.symbols = [.nonterminal .literal] := by
  revert r
  decide

theorem Expression.excess_text (e : Expression) : excess e.text = 0 := by
  cases e with
  | literal l => exact l.excess_write []
  | call c => exact c.excess_write []

theorem not_read_call_literal (l : Literal) {d : Derivation (.nonterminal .call :: row)} :
    ¬ Cut (l.write rest) d.tokens out := by
  obtain ⟨c, more, shape, front⟩ := l.exists_cons rest
  exact not_read_call ((l.skip_write rest).trans shape) (not_isLetter_of_front front)

theorem not_read_literal_call (c : Call) {d : Derivation (.nonterminal .literal :: row)} :
    ¬ Cut (c.write rest) d.tokens out := by
  intro cut
  obtain ⟨letter, more, shape, isLetter⟩ := c.exists_cons rest
  have ahead : skip (c.write rest) = letter :: more :=
    (congrArg skip shape).trans (skip_letter isLetter more)
  have startless : Startless (c.write rest) := .of_begins ahead (openers_not_letter isLetter)
  exact not_startless d rfl (by decide) cut startless

private theorem enters_start (e : Expression) {d : Derivation row} (cut : Cut e.text d.tokens out)
    (symbols : row = [.nonterminal .call] ∨ row = [.nonterminal .literal]) :
    Enters row e.text := by
  rcases symbols with rfl | rfl
  · cases e with
    | literal l => exact absurd cut (not_read_call_literal l)
    | call c => exact (enters_calling rfl).mpr (c.calling (.inl rfl) .nil)
  · cases e with
    | literal l => exact (enters_flat rfl).mpr (l.flat .nil)
    | call c => exact absurd cut (not_read_literal_call c)

/-- In a derivation of a whole expression no vector is left open. -/
theorem Expression.unclosed_eq_zero (e : Expression) {d : Derivation [.nonterminal .start]}
    (spells : d.Spells e.text) : unclosed d = 0 := by
  cases d with
  | rule r member parts last =>
    cases last
    rw [Derivation.Spells, Derivation.tokens, Derivation.tokens, List.append_nil] at spells
    have symbols := symbols_start member
    have proper : Proper r.symbols = true ∧ weight r.symbols = 0 := by
      rcases symbols with same | same <;> rw [same] <;> exact ⟨rfl, rfl⟩
    rcases balances_of_proper parts proper.1 (enters_start e spells symbols) spells with
      dead | ⟨_, balance⟩
    · obtain ⟨c, more, ahead, _⟩ := dead.left
      cases ahead
    · rw [e.excess_text, proper.2, excess_nil] at balance
      refine unclosed_rule (by decide) ?_
      omega

end SolidGeometry.Grammar.Canonical
