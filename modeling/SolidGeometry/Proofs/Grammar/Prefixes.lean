import SolidGeometry.Proofs.Grammar.Tokens

namespace SolidGeometry.Grammar

variable {text : List Char} {i j k : Nat} {tokens more : List Token}

/-- Tokens lead from one offset to another. Each is the one match of its terminal where it stands,
and nothing else lies between the offsets but separators. -/
inductive Along (text : List Char) : Nat → List Token → Nat → Prop where
  | nil {k : Nat} : Along text k [] k
  | separator {k j : Nat} {c : Char} {tokens : List Token} (here : text[k]? = some c)
      (separator : isSeparator c = true) (later : Along text (k + 1) tokens j) :
      Along text k tokens j
  | token {k j n : Nat} {t : Terminal} {tokens : List Token}
      (found : t.match? (text.drop k) = some n) (later : Along text (k + n) tokens j) :
      Along text k (⟨t, (text.drop k).take n⟩ :: tokens) j

/-- The text up to an offset consists of separators and of the first tokens of a sentence. -/
def Reachable (text : List Char) (k : Nat) : Prop :=
  ∃ tokens, Along text 0 tokens k ∧ ∃ d : Derivation [.nonterminal .start], tokens <+: d.tokens

namespace Along

theorem trans (first : Along text i tokens j) (second : Along text j more k) :
    Along text i (tokens ++ more) k := by
  induction first with
  | nil => exact second
  | separator here separator later ih => exact .separator here separator (ih second)
  | token found later ih => exact .token found (ih second)

theorem single {t : Terminal} {n : Nat} (found : t.match? (text.drop k) = some n) :
    Along text k [⟨t, (text.drop k).take n⟩] (k + n) :=
  .token found .nil

private theorem of_separators (run : List Char) (separators : ∀ c ∈ run, isSeparator c = true)
    (front : run <+: text.drop k) : Along text k [] (k + run.length) := by
  induction run generalizing k with
  | nil => exact .nil
  | cons c rest ih =>
    obtain ⟨behind, ahead⟩ := front
    have here : text[k]? = some c := by
      rw [← List.head?_drop, ← ahead]
      rfl
    have next : text.drop (k + 1) = rest ++ behind := by
      rw [← List.drop_drop, ← ahead]
      rfl
    have onward := ih (k := k + 1) (fun d member => separators d (List.mem_cons_of_mem c member))
      ⟨behind, next.symm⟩
    rw [List.length_cons, Nat.add_comm rest.length, ← Nat.add_assoc]
    exact .separator here (separators c (List.mem_cons_self ..)) onward

theorem of_separators? {n : Nat} (found : separators? (text.drop k) = some n) :
    Along text k [] (k + n) := by
  have size : n = ((text.drop k).takeWhile isSeparator).length := by
    unfold separators? at found
    split at found
    · cases found
    · rename_i count taken
      rw [taken]
      exact (Option.some.inj found).symm
  rw [size]
  exact of_separators _ (fun c member => List.all_eq_true.mp List.all_takeWhile c member)
    (List.takeWhile_prefix isSeparator)

theorem within (along : Along text k tokens j) (inside : k ≤ text.length) : j ≤ text.length := by
  induction along with
  | nil => exact inside
  | separator here separator later ih =>
    exact ih (Nat.succ_le_of_lt (List.getElem?_eq_some_iff.mp here).1)
  | token found later ih =>
    have bound := (match?_bounds found).2
    rw [List.length_drop] at bound
    exact ih (by omega)

/-- The tokens that lead from one offset to another can be cut off there. -/
theorem cut (along : Along text k tokens j) :
    Cut (text.drop k) tokens (skip (text.drop j)) := by
  induction along with
  | nil => exact .nil
  | @separator k j c tokens here separator later ih =>
    have ahead : text.drop k = c :: text.drop (k + 1) :=
      List.drop_eq_getElem?_toList_append.trans (by rw [here]; rfl)
    refine ih.of_skip ?_
    rw [ahead]
    simp [skip, separator]
  | @token k j n t tokens found later ih =>
    have solid : skip (text.drop k) = text.drop k := skip_of_match? found
    have first : Cut (text.drop k) (⟨t, (skip (text.drop k)).take n⟩ :: tokens)
        (skip (text.drop j)) :=
      .cons (by rw [solid]; exact found) (by rw [solid, List.drop_drop]; exact ih)
    rwa [solid] at first

end Along

/-- A token stands on one line. -/
theorem not_mem_of_fits {t : Terminal} {spelling : List Char} (fits : Token.Fits ⟨t, spelling⟩) :
    '\n' ∉ spelling := by
  intro member
  cases shape : t.pattern with
  | spellings texts =>
    have listed : String.ofList spelling ∈ t.spellings := by
      unfold Terminal.spellings
      rw [shape]
      exact fits.spelled shape
    have table : ∀ spelling ∈ t.spellings, '\n' ∉ spelling.toList := by cases t <;> decide
    exact table _ listed (by rwa [String.toList_ofList])
  | letters =>
    unfold Token.Fits Terminal.match? at fits
    rw [shape] at fits
    simp only [Pattern.match?] at fits
    split at fits
    · cases fits
    · rename_i count taken
      have size : (spelling.takeWhile isLetter).length = spelling.length :=
        taken.trans (Option.some.inj fits)
      have whole := (List.takeWhile_prefix isLetter (l := spelling)).eq_of_length size
      rw [← whole] at member
      have letter : isLetter '\n' = true := List.all_eq_true.mp List.all_takeWhile _ member
      exact absurd letter (by decide)
  | literal =>
    obtain rfl : t = .number := by cases t <;> first | rfl | cases shape
    have kind := Numeral.digit_or_mark ⟨spelling, fits.numeral⟩ '\n' member
    exact absurd kind (by decide)

/-- No line ends on the way from one offset to another. -/
theorem Along.one_line (along : Along text k tokens j) :
    ∀ m, k ≤ m → m < j → text[m]? ≠ some '\n' := by
  induction along with
  | nil =>
    intro m behind before
    omega
  | @separator k j c tokens here separator later ih =>
    intro m behind before
    rcases Nat.eq_or_lt_of_le behind with rfl | beyond
    · rw [here]
      rintro ⟨⟩
      cases separator
    · exact ih m beyond before
  | @token k j n t tokens found later ih =>
    intro m behind before
    by_cases inner : m < k + n
    · intro newline
      refine not_mem_of_fits (Token.fits_of_match? found) (List.mem_of_getElem? (i := m - k) ?_)
      rw [List.getElem?_take_of_lt (by omega), List.getElem?_drop, Nat.add_sub_cancel' behind]
      exact newline
    · exact ih m (by omega) before

/-- How many rules must at least be used one inside another to derive a nonterminal. -/
def Nonterminal.depth : Nonterminal → Nat
  | .number | .link => 0
  | .vector | .plane => 1
  | .line | .span | .vectorOperand | .planeOperand | .literal => 2
  | .lineOperand | .spanOperand | .operand | .call => 3
  | .nested | .start => 4

theorem exists_shallow (n : Nonterminal) :
    ∃ r ∈ n.rules, ∀ m, .nonterminal m ∈ r.symbols → m.depth < n.depth := by
  have table : ∃ r ∈ n.rules, ∀ m ∈ Nonterminal.all, .nonterminal m ∈ r.symbols →
      m.depth < n.depth := by cases n <;> decide +kernel
  obtain ⟨r, member, shallow⟩ := table
  exact ⟨r, member, fun m => shallow m (mem_all m)⟩

namespace Derivation

private theorem nonempty_row (row : List Symbol)
    (parts : ∀ n, .nonterminal n ∈ row → Nonempty (Derivation [.nonterminal n])) :
    Nonempty (Derivation row) := by
  induction row with
  | nil => exact ⟨.nil⟩
  | cons s rest ih =>
    obtain ⟨later⟩ := ih fun n member => parts n (List.mem_cons_of_mem s member)
    cases s with
    | terminal t => exact ⟨.token t [] later⟩
    | nonterminal n =>
      obtain ⟨first⟩ := parts n (List.mem_cons_self ..)
      exact ⟨first.append later⟩

private theorem nonempty_nonterminal (n : Nonterminal) :
    Nonempty (Derivation [.nonterminal n]) := by
  induction size : n.depth using Nat.strong_induction_on generalizing n with
  | h size' ih =>
    obtain ⟨r, member, shallow⟩ := exists_shallow n
    obtain ⟨parts⟩ := nonempty_row r.symbols fun m inner =>
      ih m.depth (size ▸ shallow m inner) m rfl
    exact ⟨.rule r member parts .nil⟩

/-- Every row of symbols can be derived. -/
theorem nonempty (row : List Symbol) : Nonempty (Derivation row) :=
  nonempty_row row fun n _ => nonempty_nonterminal n

theorem exists_split (row : List Symbol) {next : List Symbol} (d : Derivation (row ++ next)) :
    ∃ (e : Derivation row) (f : Derivation next), d.tokens = e.tokens ++ f.tokens := by
  induction row with
  | nil => exact ⟨.nil, d, rfl⟩
  | cons s rest ih =>
    cases d with
    | token t spelling later =>
      obtain ⟨e, f, joined⟩ := ih later
      exact ⟨.token t spelling e, f, congrArg _ joined⟩
    | rule r member parts later =>
      obtain ⟨e, f, joined⟩ := ih later
      refine ⟨.rule r member parts e, f, ?_⟩
      rw [tokens, tokens, joined, List.append_assoc]

end Derivation

end SolidGeometry.Grammar
