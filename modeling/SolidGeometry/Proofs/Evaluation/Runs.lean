import SolidGeometry.Proofs.Evaluation.Ambiguity
import SolidGeometry.Proofs.Geometry.Exact
import SolidGeometry.Proofs.Grammar.Separation
import SolidGeometry.Proofs.Number.LiteralValues

namespace SolidGeometry
open Grammar
open Number (Literal isDigit isInnerBlank)

variable {w : Numeral} {ws : List Numeral} {a : Scalar} {xs : List Scalar}
  {text after rest : List Char} {u v : Option Value}

/-- The number of a token that is read by itself. -/
def Grammar.Numeral.Reads (w : Numeral) (a : Scalar) : Prop :=
  ∃ literal, Literal.ofText? (String.ofList w.text) = some literal ∧ literal.value.result = .ok a

def Grammar.Numeral.Legible (w : Numeral) : Prop :=
  ∀ literal, Literal.ofText? (String.ofList w.text) = some literal → literal.Legible

def Grammar.Numeral.token (w : Numeral) : Token := ⟨.number, w.text⟩

theorem Grammar.Numeral.Legible.exists_reads (legible : w.Legible) : ∃ a, w.Reads a := by
  obtain ⟨literal, scanned⟩ := w.whole
  have read := Literal.ofText?_eq_some.mpr scanned
  obtain ⟨a, value⟩ := (legible literal read).exists_value
  exact ⟨a, literal, read, value⟩

theorem exists_reads (legible : ∀ w ∈ ws, w.Legible) :
    ∃ xs, List.Forall₂ Numeral.Reads ws xs := by
  induction ws with
  | nil => exact ⟨[], .nil⟩
  | cons w ws ih =>
    obtain ⟨a, first⟩ := (legible w List.mem_cons_self).exists_reads
    obtain ⟨xs, later⟩ := ih fun v member => legible v (List.mem_cons_of_mem w member)
    exact ⟨a :: xs, .cons first later⟩

theorem Grammar.Numeral.Reads.numeral? (reads : w.Reads a) (ends : Ends rest = true) :
    numeral? (w.text ++ rest) = some (some (.number a), rest) := by
  obtain ⟨literal, read, value⟩ := reads
  rw [numeral?_of_scan? (scan?_append (Literal.ofText?_eq_some.mp read) ends), Literal.outcome, value]
  rfl

theorem Grammar.Numeral.reads_iff :
    w.Reads a ↔ numeral? w.text = some (some (.number a), []) := by
  obtain ⟨literal, scanned⟩ := w.whole
  rw [numeral?_of_scan? scanned, Reads]
  simp only [Literal.ofText?_eq_some, scanned, Option.some.injEq, Prod.mk.injEq, and_true,
    exists_eq_left', Literal.outcome]
  cases literal.value.result <;> simp [Except.toOption]

theorem Grammar.Numeral.reads_rightUnique : Relator.RightUnique Numeral.Reads := by
  intro w a b first second
  cases (Numeral.reads_iff.mp first).symm.trans (Numeral.reads_iff.mp second)
  rfl

/-- A number token, and the same one with or without a plus in front. -/
def Grammar.Numeral.Plussed (w p : Numeral) : Prop :=
  p.text = w.text ∨
    ∃ blanks, (∀ c ∈ blanks, isInnerBlank c = true) ∧ p.text = '+' :: (blanks ++ w.text)

/-- A plus in front of a number does not change it. -/
theorem Grammar.Numeral.Plussed.reads {p : Numeral} (plussed : w.Plussed p) (reads : w.Reads a) :
    p.Reads a := by
  rw [Numeral.reads_iff] at reads ⊢
  rcases plussed with same | ⟨blanks, inner, same⟩
  · rw [same, reads]
  · have unsigned : ∀ c ∈ blanks, Terminal.number.begins c = false := by
      intro c member
      rcases separator_cases (isSeparator_of_isInnerBlank (inner c member)) with rfl | rfl | rfl <;>
        rfl
    rw [same, numeral?_plus, numeral?_append _ unsigned, reads]

theorem reads_plussed {ps : List Numeral} (plussed : List.Forall₂ Numeral.Plussed ws ps)
    (reads : List.Forall₂ Numeral.Reads ws xs) : List.Forall₂ Numeral.Reads ps xs := by
  induction plussed generalizing xs with
  | nil =>
    cases reads
    exact .nil
  | cons signed _ ih =>
    cases reads with
    | cons first later => exact .cons (signed.reads first) (ih later)

/-- Number tokens with separators in front of each. -/
inductive Later : List Numeral → List Char → Prop where
  | nil : Later [] []
  | cons {gap rest : List Char} {ws : List Numeral} (w : Numeral) (apart : gap ≠ [])
      (separators : ∀ c ∈ gap, isSeparator c = true) (later : Later ws rest) :
      Later (w :: ws) (gap ++ (w.text ++ rest))

/-- Number tokens with separators between them. -/
inductive Run : List Numeral → List Char → Prop where
  | nil : Run [] []
  | cons {rest : List Char} {ws : List Numeral} (w : Numeral) (later : Later ws rest) :
      Run (w :: ws) (w.text ++ rest)

theorem Later.ends (later : Later ws text) : Ends text = true := by
  cases later with
  | nil => rfl
  | @cons gap _ _ _ apart separators _ =>
    refine ends_of_separators fun c first => ?_
    obtain ⟨d, others, rfl⟩ := List.exists_cons_of_ne_nil apart
    exact separators c (Option.some.inj first ▸ List.mem_cons_self)

/-- Behind the separators in front of them, later numbers are a run. -/
theorem Later.skip (later : Later ws text) : Run ws (skip text) := by
  cases later with
  | nil => exact .nil
  | @cons gap rest _ w _ separators later =>
    have front : Grammar.skip (gap ++ (w.text ++ rest)) = w.text ++ rest :=
      (List.dropWhile_append_of_pos separators).trans (w.skip_append later.ends)
    rw [front]
    exact .cons w later

theorem Run.skip (run : Run ws text) : skip text = text := by
  cases run with
  | nil => rfl
  | cons w later => exact w.skip_append later.ends

/-- The numbers of a run are tokens of its text. -/
theorem Run.cut (run : Run ws text) : Cut text (ws.map Numeral.token) [] := by
  induction ws generalizing text with
  | nil =>
    cases run
    exact .nil
  | cons w ws ih =>
    have solid := run.skip
    cases run with
    | cons _ later =>
      have found := w.match?_append later.ends
      rw [← solid] at found
      have cut := Cut.cons found ((ih later.skip).of_skip (by simp [solid]))
      rwa [solid, List.take_left] at cut

/-- What a plain run of numbers stands for: a vector, a plane's equation, a line, or a plane through
vectors. -/
def valueOfRun? : List Scalar → Option Value
  | [x, y, z] => some (.ofVector ⟨x, y, z⟩)
  | [a, b, c, d] => some (.element (.plane ⟨⟨a, b, c⟩, d⟩))
  | [x, y, z, p, q, r] => some (.element (.line ⟨⟨x, y, z⟩, ⟨p, q, r⟩⟩))
  | [x, y, z, p, q, r, s, t, u] => some (.element (.span ⟨⟨x, y, z⟩, ⟨p, q, r⟩, ⟨s, t, u⟩⟩))
  | _ => none

/-- A text of later numbers, and how these are read by themselves. -/
def Remain (xs : List Scalar) (text : List Char) : Prop :=
  ∃ ws, Later ws text ∧ List.Forall₂ Numeral.Reads ws xs

/-- A text that is a run behind separators, and how its numbers are read by themselves. -/
def Listed (xs : List Scalar) (text : List Char) : Prop :=
  ∃ ws, Run ws (skip text) ∧ List.Forall₂ Numeral.Reads ws xs

theorem Remain.listed (remain : Remain xs text) : Listed xs text := by
  obtain ⟨ws, later, reads⟩ := remain
  exact ⟨ws, later.skip, reads⟩

/-- The first number of a text is the first one that is listed. -/
theorem Listed.next (listed : Listed xs text) (found : numeral? text = some (v, rest)) :
    ∃ a others, xs = a :: others ∧ v = some (.number a) ∧ Remain others rest := by
  obtain ⟨ws, run, reads⟩ := listed
  rw [← numeral?_skip] at found
  generalize skip text = solid at run found
  cases run with
  | nil => cases found
  | cons w later =>
    cases reads with
    | @cons _ a _ others first behind =>
      rw [first.numeral? later.ends] at found
      cases found
      exact ⟨a, others, rfl, rfl, _, later, behind⟩

theorem Listed.vector (listed : Listed xs text) (literal : LiteralAt .vector text u after) :
    ∃ a b c others, xs = a :: b :: c :: others ∧ u = some (.ofVector ⟨a, b, c⟩) ∧
      Remain others after := by
  cases literal with
  | vector x _ y _ z =>
    obtain ⟨a, _, rfl, rfl, remain⟩ := listed.next x
    obtain ⟨b, _, rfl, rfl, remain⟩ := remain.listed.next y
    obtain ⟨c, others, rfl, rfl, remain⟩ := remain.listed.next z
    exact ⟨a, b, c, others, rfl, rfl, remain⟩

theorem Run.exists_cons (run : Run (w :: ws) text) : ∃ c more, text = c :: more ∧
    (isDigit c = true ∨ c = '+' ∨ c = '-') := by
  cases run with
  | cons _ later =>
    obtain ⟨c, more, front, begins⟩ := w.exists_cons
    exact ⟨c, more ++ _, by rw [front, List.cons_append], begins⟩

/-- Nothing closes a run, so a literal that takes it whole leaves no number. -/
theorem Remain.eq_nil {k : Kind} (remain : Remain xs after) (trails : Trails k after []) :
    xs = [] := by
  obtain ⟨ws, later, reads⟩ := remain
  cases reads with
  | nil => rfl
  | cons _ _ =>
    obtain ⟨c, more, front, begins⟩ := later.skip.exists_cons
    generalize ended : ([] : List Char) = rest at trails
    cases trails with
    | plain => cases ended.trans front
    | closed _ closer behind =>
      cases front.symm.trans behind
      rcases closer_cases closer with rfl | rfl | rfl <;> exact absurd begins (by decide)
    | equated _ behind _ =>
      cases front.symm.trans behind
      exact absurd begins (by decide)

/-- A literal that takes a whole run has the value that the run stands for. -/
theorem Listed.literal {k : Kind} (listed : Listed xs text) (literal : LiteralAt k text v after)
    (trails : Trails k after []) : ∃ value, valueOfRun? xs = some value ∧ v = some value := by
  cases literal with
  | vector x adjoined y joined z =>
    obtain ⟨a, b, c, others, rfl, same, remain⟩ :=
      listed.vector (.vector x adjoined y joined z)
    cases remain.eq_nil trails
    exact ⟨_, rfl, same⟩
  | line base direction =>
    obtain ⟨a, b, c, others, rfl, rfl, remain⟩ := listed.vector base
    obtain ⟨p, q, r, others, rfl, rfl, remain⟩ := remain.listed.vector direction
    cases remain.eq_nil trails
    exact ⟨_, rfl, rfl⟩
  | span base first second =>
    obtain ⟨a, b, c, others, rfl, rfl, remain⟩ := listed.vector base
    obtain ⟨p, q, r, others, rfl, rfl, remain⟩ := remain.listed.vector first
    obtain ⟨s, t, w, others, rfl, rfl, remain⟩ := remain.listed.vector second
    cases remain.eq_nil trails
    exact ⟨_, rfl, rfl⟩
  | plane x y z offset =>
    obtain ⟨a, _, rfl, rfl, remain⟩ := listed.next x
    obtain ⟨b, _, rfl, rfl, remain⟩ := remain.listed.next y
    obtain ⟨c, _, rfl, rfl, remain⟩ := remain.listed.next z
    obtain ⟨d, others, rfl, rfl, remain⟩ := remain.listed.next offset
    cases remain.eq_nil trails
    exact ⟨_, rfl, rfl⟩

theorem Grammar.Numeral.letterless (w : Numeral) : ∀ c ∈ w.text, isLetter c = false := by
  intro c member
  rcases w.digit_or_mark c member with digit | mark
  · exact not_isLetter_of_isDigit digit
  · simp only [isMark, isInnerBlank, Bool.or_eq_true, beq_iff_eq] at mark
    rcases mark with (((rfl | rfl) | rfl) | rfl) | rfl | rfl <;> rfl

theorem Later.letterless (later : Later ws text) : ∀ c ∈ text, isLetter c = false := by
  induction later with
  | nil => exact List.forall_mem_nil _
  | cons w _ separators _ ih =>
    intro c member
    rcases List.mem_append.mp member with gap | behind
    · exact not_isLetter_of_isSeparator (separators c gap)
    · exact (List.mem_append.mp behind).elim (w.letterless c) (ih c)

theorem Run.letterless (run : Run ws text) : ∀ c ∈ text, isLetter c = false := by
  cases run with
  | nil => exact List.forall_mem_nil _
  | cons w later =>
    intro c member
    exact (List.mem_append.mp member).elim (w.letterless c) (later.letterless c)

/-- A call has a letter. -/
theorem Leaves.call_letter {values : List (Option Value)}
    (leaves : Leaves [.nonterminal .call] text values rest) : ∃ c ∈ text, isLetter c = true := by
  obtain ⟨s, listed, _, n, parts, found, _, _⟩ := call_inv leaves
  have suffix : Grammar.skip text <:+ text := List.dropWhile_suffix isSeparator
  cases front : Grammar.skip text with
  | nil =>
    rw [front, match?_nil] at found
    cases found
  | cons c more =>
    rw [front] at found suffix
    exact ⟨c, suffix.subset List.mem_cons_self,
      isLetter_of_begins (Canonical.head_mem_heads listed) (begins_of_match? found)⟩

/-- No generic function is called without letters. -/
theorem plain_of_letterless (letterless : ∀ c ∈ text, isLetter c = false)
    {d : Derivation [.nonterminal .start]} (spells : d.Spells text) : ¬ d.Generic := by
  refine plain_of_nameless (fun name listed inside => ?_) spells
  obtain ⟨c, more, front, letter⟩ := Name.exists_cons (by decide) (⟨name, listed⟩ : Name .generic)
  rw [letterless c (inside.subset (by rw [front]; exact List.mem_cons_self))] at letter
  cases letter

/-- Each reading of a run has the value that the run stands for. -/
theorem Run.outcome (run : Run ws text) (reads : List.Forall₂ Numeral.Reads ws xs)
    {d : Derivation [.nonterminal .start]} (spells : d.Spells text) {tree : Grammar.Tree}
    (single : d.trees = [tree]) :
    ∃ value, valueOfRun? xs = some value ∧ tree.outcome = some value := by
  have leaves := d.leaves (plain_of_letterless run.letterless spells) spells
  rw [single] at leaves
  rcases leaves.start_cases with inner | inner
  · obtain ⟨c, inside, letter⟩ := inner.call_letter
    rw [run.letterless c inside] at letter
    cases letter
  · obtain ⟨k, inner⟩ := inner.exists_kind
    obtain ⟨v, after, same, _, literal, trails⟩ := inner.literal_alone
    obtain ⟨value, stands, rfl⟩ := Listed.literal ⟨ws, run.skip.symm ▸ run, reads⟩ literal trails
    exact ⟨value, stands, (List.cons.inj same).1⟩

/-- A literal of any kind is a whole expression. -/
theorem exists_start {k : Kind} (d : Derivation [.nonterminal k.nonterminal]) :
    ∃ e : Derivation [.nonterminal .start], e.tokens = d.tokens := by
  have listed : ∃ r ∈ Nonterminal.literal.rules, r.symbols = [.nonterminal k.nonterminal] := by
    cases k <;> decide
  obtain ⟨r, member, symbols⟩ := listed
  obtain ⟨parts, tokens, -⟩ := Derivation.exists_of_eq symbols.symm d
  refine ⟨.rule (Canonical.unitRule 1 .start .literal) startRule_mem
    (.rule r member parts .nil) .nil, ?_⟩
  simp only [Derivation.tokens, tokens, List.append_nil]

def emptyLinkRule : Rule := ⟨7, .link, [], none⟩

/-- Two vectors without anything between them but separators. -/
def unlinked {row : List Symbol} (later : Derivation row) :
    Derivation (.nonterminal .link :: row) :=
  .rule emptyLinkRule (by decide) .nil later

def bareNumber {row : List Symbol} (x : List Char) (later : Derivation row) :
    Derivation (.nonterminal .number :: row) :=
  .rule Canonical.numberRule numberRule_mem (.token .number x .nil) later

def barePlaneRule : Rule :=
  ⟨53, .plane, [.nonterminal .number, .nonterminal .number, .nonterminal .number,
    .nonterminal .number], some .plane⟩

theorem barePlaneRule_mem : barePlaneRule ∈ Nonterminal.plane.rules := by decide +kernel

private theorem exists_first {others : List Scalar}
    (reads : List.Forall₂ Numeral.Reads ws (a :: others)) :
    ∃ w more, ws = w :: more ∧ List.Forall₂ Numeral.Reads more others := by
  cases reads with
  | cons _ later => exact ⟨_, _, rfl, later⟩

private theorem exists_three {a b c : Scalar} {others : List Scalar}
    (reads : List.Forall₂ Numeral.Reads ws (a :: b :: c :: others)) :
    ∃ x y z more, ws = x :: y :: z :: more ∧ List.Forall₂ Numeral.Reads more others := by
  obtain ⟨x, _, rfl, behind⟩ := exists_first reads
  obtain ⟨y, _, rfl, later⟩ := exists_first behind
  obtain ⟨z, more, rfl, rest⟩ := exists_first later
  exact ⟨x, y, z, more, rfl, rest⟩

/-- A run that stands for something has a derivation. -/
theorem exists_derivation {value : Value} (reads : List.Forall₂ Numeral.Reads ws xs)
    (stands : valueOfRun? xs = some value) :
    ∃ d : Derivation [.nonterminal .start], d.tokens = ws.map Numeral.token := by
  unfold valueOfRun? at stands
  split at stands
  · obtain ⟨x, y, z, _, rfl, ⟨⟩⟩ := exists_three reads
    exact exists_start (k := .vector) (bareVector x.text y.text z.text .nil)
  · obtain ⟨x, y, z, _, rfl, behind⟩ := exists_three reads
    obtain ⟨w, _, rfl, ⟨⟩⟩ := exists_first behind
    exact exists_start (k := .plane) (.rule barePlaneRule barePlaneRule_mem
      (bareNumber x.text (bareNumber y.text (bareNumber z.text (bareNumber w.text .nil)))) .nil)
  · obtain ⟨x, y, z, _, rfl, behind⟩ := exists_three reads
    obtain ⟨p, q, r, _, rfl, ⟨⟩⟩ := exists_three behind
    exact exists_start (k := .line) (.rule Canonical.lineRule Canonical.lineRule_mem
      (bareVector x.text y.text z.text (unlinked (bareVector p.text q.text r.text .nil))) .nil)
  · obtain ⟨x, y, z, _, rfl, behind⟩ := exists_three reads
    obtain ⟨p, q, r, _, rfl, later⟩ := exists_three behind
    obtain ⟨s, t, u, _, rfl, ⟨⟩⟩ := exists_three later
    exact exists_start (k := .span) (.rule Canonical.spanRule Canonical.spanRule_mem
      (bareVector x.text y.text z.text (unlinked (bareVector p.text q.text r.text
        (unlinked (bareVector s.text t.text u.text .nil))))) .nil)
  · cases stands

theorem Grammar.Numeral.isDigit_of_last (w : Numeral)
    (behind : ∀ c ∈ rest.getLast?, isDigit c = true) :
    ∀ c ∈ (w.text ++ rest).getLast?, isDigit c = true := by
  obtain ⟨front, digit, joined, isDigit⟩ := w.exists_append
  intro c last
  rw [List.getLast?_append] at last
  cases ended : rest.getLast? with
  | none =>
    rw [ended, joined, List.getLast?_concat] at last
    cases last
    exact isDigit
  | some d =>
    rw [ended] at last
    cases last
    exact behind c ended

theorem Later.isDigit_of_last (later : Later ws text) :
    ∀ c ∈ text.getLast?, isDigit c = true := by
  induction later with
  | nil => exact nofun
  | cons w _ _ _ ih =>
    intro c last
    obtain ⟨d, more, front, _⟩ := w.exists_cons
    rw [List.getLast?_append_of_ne_nil _ (by simp [front])] at last
    exact w.isDigit_of_last ih c last

/-- No blank begins or ends a run. -/
theorem Run.trim (run : Run ws text) : Text.trim text = text := by
  cases run with
  | nil => rfl
  | cons w later =>
    refine Text.trimBy_eq_self (fun c first => ?_) fun c last =>
      Canonical.not_isBlank_of_isDigit (w.isDigit_of_last later.isDigit_of_last c last)
    obtain ⟨d, more, front, begins⟩ := (Run.cons w later).exists_cons
    rw [front] at first
    cases first
    rcases begins with digit | rfl | rfl
    · exact Canonical.not_isBlank_of_isDigit digit
    · decide
    · decide

theorem evaluate_unread {text : String} {cause : SyntaxError}
    (failed : read text = .error cause) : (evaluate text).result = .error (.unreadable cause) := by
  rw [evaluate, failed]
  rfl

theorem Run.evaluate {text : String} (run : Run ws text.toList)
    (reads : List.Forall₂ Numeral.Reads ws xs) :
    match valueOfRun? xs with
    | some value => (SolidGeometry.evaluate text).result = .ok value
    | none => ∃ cause, (SolidGeometry.evaluate text).result = .error (.unreadable cause) := by
  rcases readTrimmed_cases text.toList with
    ⟨d, tree, spells, single, found⟩ | ⟨underivable, cause, failed⟩
  · obtain ⟨value, stands, outcome⟩ := run.outcome reads spells single
    rw [← run.trim] at found
    rw [stands, result_evaluate found]
    cases done : tree.value.result with
    | ok given =>
      rw [Grammar.Tree.outcome, done] at outcome
      cases outcome
      rfl
    | error e =>
      rw [Grammar.Tree.outcome, done] at outcome
      cases outcome
  · rw [← run.trim] at failed
    cases stands : valueOfRun? xs with
    | none => exact ⟨cause, evaluate_unread failed⟩
    | some value =>
      obtain ⟨d, tokens⟩ := exists_derivation reads stands
      exact absurd (by rw [Derivation.Spells, tokens]; exact run.cut) (underivable d)

/-- How many numbers there are in a plain run decides alone what it stands for: three are a vector,
four a plane, six a line and nine a plane through vectors, each of the numbers as they are read by
themselves, and no other run is read. A plus in front of any of them, whether it is read as a sign
or as a link, does not change the value. -/
theorem evaluate_run {text : String} {ws : List Numeral} (run : Run ws text.toList)
    (legible : ∀ w ∈ ws, w.Legible) :
    ∃ xs, List.Forall₂ Numeral.Reads ws xs ∧
      (match valueOfRun? xs with
        | some value => (evaluate text).result = .ok value
        | none => ∃ cause, (evaluate text).result = .error (.unreadable cause)) ∧
      ∀ (other : String) (ps : List Numeral), Run ps other.toList →
        List.Forall₂ Numeral.Plussed ws ps → ∀ value,
          (evaluate other).result = .ok value ↔ (evaluate text).result = .ok value := by
  obtain ⟨xs, reads⟩ := exists_reads legible
  have stands := run.evaluate reads
  refine ⟨xs, reads, stands, fun other ps signed plussed value => ?_⟩
  have others := signed.evaluate (reads_plussed plussed reads)
  cases found : valueOfRun? xs with
  | some given =>
    rw [found] at stands others
    rw [stands, others]
  | none =>
    rw [found] at stands others
    obtain ⟨cause, failed⟩ := stands
    obtain ⟨reason, missed⟩ := others
    rw [failed, missed]
    exact iff_of_false nofun nofun

/-- A plane whose last number has a plus that might link two vectors. -/
theorem evaluate_run_plane : (evaluate "1 2/3, - 4 \t+ 5").result =
    .ok (.element (.plane ⟨⟨1, .ratio (2 / 3), .int (-4)⟩, 5⟩)) := by
  let a : Numeral := ⟨['1'], ⟨.absent, ['1'], .absent⟩, rfl⟩
  let b : Numeral := ⟨['2', '/', '3'], ⟨.absent, ['2'], .denominator ['3']⟩, rfl⟩
  let c : Numeral := ⟨['-', ' ', '4'], ⟨.minus, ['4'], .absent⟩, rfl⟩
  let d : Numeral := ⟨['+', ' ', '5'], ⟨.plus, ['5'], .absent⟩, rfl⟩
  have spelled : "1 2/3, - 4 \t+ 5".toList = ['1'] ++ ([' '] ++ (['2', '/', '3'] ++
      ([',', ' '] ++ (['-', ' ', '4'] ++ ([' ', '\t'] ++ (['+', ' ', '5'] ++ [])))))) := by
    decide
  have run : Run [a, b, c, d] "1 2/3, - 4 \t+ 5".toList := by
    rw [spelled]
    refine .cons a (.cons b (by decide) ?_ (.cons c (by decide) ?_
      (.cons d (by decide) ?_ .nil))) <;> simp [isSeparator]
  have legible : ∀ w ∈ [a, b, c, d], w.Legible := by
    intro w member literal read
    have scanned := Literal.ofText?_eq_some.mp read
    simp only [List.mem_cons, List.not_mem_nil, or_false] at member
    rcases member with rfl | rfl | rfl | rfl <;> cases scanned <;> decide
  obtain ⟨xs, reads, stands, -⟩ := evaluate_run run legible
  have quotient : Scalar.ofRat (mkRat 2 3) = .ratio (2 / 3) := by
    rw [Scalar.ofRat, if_neg (by decide +kernel), Rat.mkRat_eq_div]
    rfl
  have known : List.Forall₂ Numeral.Reads [a, b, c, d] [1, .ratio (2 / 3), .int (-4), 5] := by
    rw [← quotient]
    exact .cons (Numeral.reads_iff.mpr rfl) (.cons (Numeral.reads_iff.mpr rfl)
      (.cons (Numeral.reads_iff.mpr rfl) (.cons (Numeral.reads_iff.mpr rfl) .nil)))
  cases Numeral.reads_rightUnique.forall₂ reads known
  exact stands

end SolidGeometry
