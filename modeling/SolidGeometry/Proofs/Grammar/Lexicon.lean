import SolidGeometry.Proofs.Grammar.RuleTable

namespace SolidGeometry.Grammar
open Number

/-- Whether a kind of token can begin with a character. -/
def Terminal.begins (t : Terminal) (c : Char) : Bool :=
  match t.pattern with
  | .spellings texts => texts.any fun spelling => spelling.toList.head? == some c
  | .letters => isLetter c
  | .literal => isDigit c || c == '+' || c == '-'

theorem begins_scan? {c : Char} {rest : List Char} {scanned : Literal × List Char}
    (found : Literal.scan? (c :: rest) = some scanned) :
    (isDigit c || c == '+' || c == '-') = true := by
  obtain ⟨l, _, joined⟩ := exists_spacedLiteral found
  obtain ⟨d, more, text, begins⟩ := l.exists_cons
  rw [text] at joined
  cases joined
  simpa [or_assoc] using begins

theorem begins_of_match? {t : Terminal} {c : Char} {rest : List Char} {n : Nat}
    (found : t.match? (c :: rest) = some n) : t.begins c = true := by
  unfold Terminal.match? at found
  unfold Terminal.begins
  cases shape : t.pattern with
  | spellings texts =>
    rw [shape] at found
    simp only [Pattern.match?, Option.map_eq_some_iff] at found
    obtain ⟨spelling, first, rfl⟩ := found
    have listed := List.mem_of_find?_eq_some first
    have front := List.isPrefixOf_iff_prefix.mp
      (List.find?_some (p := fun spelling : String => spelling.toList.isPrefixOf (c :: rest)) first)
    have nonempty : ∀ spelling ∈ texts, spelling.toList ≠ [] := by
      cases t <;> cases shape <;> decide
    refine List.any_eq_true.mpr ⟨spelling, listed, ?_⟩
    obtain ⟨more, joined⟩ := front
    cases letters : spelling.toList with
    | nil => exact absurd letters (nonempty spelling listed)
    | cons d others =>
      rw [letters] at joined
      simp [(List.cons.inj joined).1]
  | letters =>
    rw [shape] at found
    simp only [Pattern.match?] at found
    split at found
    · cases found
    · rename_i count taken
      by_cases letter : isLetter c = true
      · exact letter
      · simp [letter] at taken
  | literal =>
    rw [shape] at found
    simp only [Pattern.match?, Option.map_eq_some_iff] at found
    obtain ⟨scanned, scan, rfl⟩ := found
    exact begins_scan? scan

theorem match?_of_not_begins {t : Terminal} {c : Char} (rest : List Char)
    (other : t.begins c = false) : t.match? (c :: rest) = none := by
  cases found : t.match? (c :: rest) with
  | none => rfl
  | some n =>
    rw [begins_of_match? found] at other
    cases other

theorem match?_nil (t : Terminal) : t.match? [] = none := by
  cases found : t.match? [] with
  | none => rfl
  | some n =>
    have bounds := match?_bounds found
    simp at bounds
    omega

theorem match?_word {c : Char} (letter : isLetter c = true) (rest : List Char) :
    Terminal.word.match? (c :: ' ' :: rest) = some 1 := by
  have blank : isLetter ' ' = false := rfl
  have taken : (c :: ' ' :: rest).takeWhile isLetter = [c] := by simp [letter, blank]
  simp only [Terminal.match?, Terminal.pattern, Pattern.match?, taken]
  rfl

/-- A text at which every number token before it ends. -/
def Ends : List Char → Bool
  | [] => true
  | c :: _ => !(isDigit c || c == '/' || c == '.')

private theorem takeWhile_of_ends {rest : List Char} (ends : Ends rest = true) :
    rest.takeWhile isDigit = [] ∧ rest.dropWhile isDigit = rest := by
  cases rest with
  | nil => exact ⟨rfl, rfl⟩
  | cons c more =>
    have other : isDigit c = false := by simp_all [Ends]
    simp [other]

theorem takeWhile_append_of_ends (digits : List Char) {rest : List Char}
    (ends : Ends rest = true) :
    (digits ++ rest).takeWhile isDigit = digits.takeWhile isDigit ∧
      (digits ++ rest).dropWhile isDigit = digits.dropWhile isDigit ++ rest := by
  induction digits with
  | nil => simpa using takeWhile_of_ends ends
  | cons c more ih =>
    by_cases digit : isDigit c = true
    · simp [digit, ih.1, ih.2]
    · simp [digit]

/-- What follows a place where numbers end stays out of a denominator or decimal places. -/
theorem scanTail_append (tail : List Char) {rest : List Char} (ends : Ends rest = true) :
    scanTail (tail ++ rest) = ((scanTail tail).1, (scanTail tail).2 ++ rest) := by
  cases tail with
  | nil =>
    cases rest with
    | nil => rfl
    | cons c more =>
      simp only [Ends, Bool.not_eq_true', Bool.or_eq_false_iff, beq_eq_false_iff_ne] at ends
      unfold scanTail
      split
      · rename_i same
        exact absurd (List.cons.inj same).1 ends.1.2
      · rename_i same
        exact absurd (List.cons.inj same).1 ends.2
      · rfl
  | cons c digits =>
    have parts := takeWhile_append_of_ends digits ends
    by_cases slash : c = '/'
    · subst slash
      simp only [scanTail, List.cons_append, parts.1, parts.2]
      split <;> rfl
    by_cases point : c = '.'
    · subst point
      simp only [scanTail, List.cons_append, parts.1, parts.2]
      split <;> rfl
    have absent : ∀ others, scanTail (c :: others) = (.absent, c :: others) := by
      intro others
      unfold scanTail
      split
      · rename_i same
        exact absurd (List.cons.inj same).1 slash
      · rename_i same
        exact absurd (List.cons.inj same).1 point
      · rfl
    rw [List.cons_append, absent, absent]
    rfl

private theorem scanSign_append {text : List Char} (rest : List Char)
    (digits : (scanSign text).2.takeWhile isDigit ≠ []) :
    scanSign (text ++ rest) = ((scanSign text).1, (scanSign text).2 ++ rest) := by
  have front : ∀ more : List Char, (more.dropWhile isInnerBlank).takeWhile isDigit ≠ [] →
      (more ++ rest).dropWhile isInnerBlank = more.dropWhile isInnerBlank ++ rest := by
    intro more some
    rw [List.dropWhile_append]
    split
    · rename_i empty
      rw [List.isEmpty_iff.mp empty] at some
      simp at some
    · rfl
  cases text with
  | nil => simp [scanSign] at digits
  | cons c more =>
    by_cases plus : c = '+'
    · subst plus
      simp only [scanSign, List.cons_append, Prod.mk.injEq, true_and]
      exact front more digits
    by_cases minus : c = '-'
    · subst minus
      simp only [scanSign, List.cons_append, Prod.mk.injEq, true_and]
      exact front more digits
    rw [List.cons_append, scanSign_of_ne plus minus, scanSign_of_ne plus minus]
    rfl

/-- A whole literal is scanned up to where it ends, whatever follows. -/
theorem scan?_append {text rest : List Char} {literal : Literal}
    (scanned : Literal.scan? text = some (literal, [])) (ends : Ends rest = true) :
    Literal.scan? (text ++ rest) = some (literal, rest) := by
  unfold Literal.scan? at scanned ⊢
  dsimp only at scanned ⊢
  split at scanned
  · cases scanned
  · rename_i digits
    have parts := takeWhile_append_of_ends (scanSign text).2 ends
    rw [scanSign_append rest digits]
    simp only [parts.1, parts.2]
    rw [if_neg digits]
    simp only [Option.some.injEq, Prod.mk.injEq] at scanned ⊢
    rw [scanTail_append _ ends, scanned.2]
    exact ⟨scanned.1, rfl⟩

/-- The characters of numbers other than digits. -/
def isMark (c : Char) : Bool :=
  c == '+' || c == '-' || c == '/' || c == '.' || isInnerBlank c

theorem isMark_of_isInnerBlank {c : Char} (blank : isInnerBlank c = true) : isMark c = true := by
  rw [isMark, blank, Bool.or_true]

theorem isMark_of_mem_sign {sign : Sign} {c : Char} (member : c ∈ sign.spelling) :
    isMark c = true := by
  cases sign with
  | absent => cases member
  | plus => exact List.mem_singleton.mp member ▸ rfl
  | minus => exact List.mem_singleton.mp member ▸ rfl

/-- A literal ends with digits, and before them has nothing but digits and marks. -/
theorem exists_digits {text : List Char} {literal : Literal}
    (scanned : Literal.scan? text = some (literal, [])) :
    ∃ front digits, text = front ++ digits ∧ digits ≠ [] ∧ (∀ c ∈ digits, isDigit c = true) ∧
      ∀ c ∈ front, isDigit c = true ∨ isMark c = true := by
  obtain ⟨l, rfl, rfl⟩ := exists_text scanned
  have sign : ∀ c ∈ l.sign.spelling ++ l.blanks, isDigit c = true ∨ isMark c = true :=
    List.forall_mem_append.mpr ⟨fun _ member => .inr (isMark_of_mem_sign member),
      fun c member => .inr (isMark_of_isInnerBlank (l.blank c member))⟩
  have apart {mark : Char} (isMark : isMark mark = true) :
      ∀ c ∈ l.sign.spelling ++ l.blanks ++ l.digits ++ [mark],
        isDigit c = true ∨ Grammar.isMark c = true :=
    List.forall_mem_append.mpr ⟨List.forall_mem_append.mpr ⟨sign, fun c member =>
      .inl (l.areDigits.all c member)⟩, List.forall_mem_singleton.mpr (.inr isMark)⟩
  have proper := l.proper
  unfold SpacedLiteral.text
  cases shape : l.tail with
  | absent => exact ⟨_, l.digits, List.append_nil _, l.areDigits.ne_nil, l.areDigits.all, sign⟩
  | denominator below =>
    rw [shape] at proper
    exact ⟨_, below, (List.append_cons ..), proper.ne_nil, proper.all, apart rfl⟩
  | places places =>
    rw [shape] at proper
    exact ⟨_, places, (List.append_cons ..), proper.ne_nil, proper.all, apart rfl⟩

/-- The text of one number token. -/
structure Numeral where
  text : List Char
  whole : ∃ literal, Literal.scan? text = some (literal, [])

/-- A number token without a leading plus. -/
structure PlainNumeral extends Numeral where
  plain : text.head? ≠ some '+'

/-- A number token with an explicit sign. -/
structure SignedNumeral extends Numeral where
  signed : text.head? = some '+' ∨ text.head? = some '-'

namespace Numeral

theorem match?_append (w : Numeral) {rest : List Char} (ends : Ends rest = true) :
    Terminal.number.match? (w.text ++ rest) = some w.text.length := by
  obtain ⟨literal, scanned⟩ := w.whole
  simp only [Terminal.match?, Terminal.pattern, Pattern.match?, scan?_append scanned ends,
    Option.map_some, List.length_append, Nat.add_sub_cancel]

theorem skip_append (w : Numeral) {rest : List Char} (ends : Ends rest = true) :
    skip (w.text ++ rest) = w.text ++ rest :=
  skip_of_match? (w.match?_append ends)

theorem exists_cons (w : Numeral) : ∃ c more, w.text = c :: more ∧
    (isDigit c = true ∨ c = '+' ∨ c = '-') := by
  obtain ⟨literal, scanned⟩ := w.whole
  obtain ⟨l, _, text⟩ := exists_text scanned
  exact text ▸ l.exists_cons

theorem digit_or_mark (w : Numeral) : ∀ c ∈ w.text, isDigit c = true ∨ isMark c = true := by
  obtain ⟨literal, scanned⟩ := w.whole
  obtain ⟨front, digits, joined, _, all, marks⟩ := exists_digits scanned
  intro c member
  rw [joined] at member
  exact (List.mem_append.mp member).elim (marks c) fun found => .inl (all c found)

theorem bracketless (w : Numeral) : ∀ c ∈ w.text, c ≠ '(' ∧ c ≠ ')' := by
  intro c member
  have kind := w.digit_or_mark c member
  constructor <;> rintro rfl <;> exact absurd kind (by decide)

theorem exists_append (w : Numeral) : ∃ front c, w.text = front ++ [c] ∧ isDigit c = true := by
  obtain ⟨literal, scanned⟩ := w.whole
  obtain ⟨front, digits, joined, some, all, _⟩ := exists_digits scanned
  obtain ⟨others, c, rfl⟩ := List.eq_nil_or_concat digits |>.resolve_left some
  exact ⟨front ++ others, c, by rw [joined, List.append_assoc, List.concat_eq_append],
    all c (by simp)⟩

end Numeral

/-- A plain number begins with a digit or a minus. -/
theorem PlainNumeral.exists_cons (w : PlainNumeral) : ∃ c more, w.text = c :: more ∧
    (isDigit c = true ∨ c = '-') := by
  obtain ⟨c, more, text, front⟩ := w.toNumeral.exists_cons
  refine ⟨c, more, text, ?_⟩
  rcases front with digit | rfl | minus
  · exact .inl digit
  · exact absurd (by rw [text]; rfl) w.plain
  · exact .inr minus

/-- The spellings of a kind of token that has a few. -/
def Terminal.spellings (t : Terminal) : List String :=
  match t.pattern with
  | .spellings texts => texts
  | _ => []

theorem pattern_of_spellings {t : Terminal} (spelled : t.spellings ≠ []) :
    t.pattern = .spellings t.spellings := by
  unfold Terminal.spellings at spelled ⊢
  cases shape : t.pattern with
  | spellings texts => rfl
  | letters =>
    rw [shape] at spelled
    exact absurd rfl spelled
  | literal =>
    rw [shape] at spelled
    exact absurd rfl spelled

/-- The kinds of tokens that calls begin with. -/
def heads : List Terminal :=
  [.vectorFunction, .pairFunction, .lwith, .planeFunction, .pwith, .line, .plane, .generic]

theorem pattern_of_head {t : Terminal} (head : t ∈ heads) :
    t.pattern = .spellings t.spellings := by
  have table : ∀ t ∈ heads, t.spellings ≠ [] := by decide
  exact pattern_of_spellings (table t head)

theorem isLetter_of_begins {t : Terminal} (head : t ∈ heads) {c : Char}
    (begins : t.begins c = true) : isLetter c = true := by
  have table : ∀ t ∈ heads, ∀ spelling ∈ t.spellings,
      spelling.toList.head?.all isLetter = true := by decide
  unfold Terminal.begins at begins
  rw [pattern_of_head head] at begins
  obtain ⟨spelling, listed, first⟩ := List.any_eq_true.mp begins
  have letter := table t head spelling listed
  rw [beq_iff_eq.mp first] at letter
  exact letter

theorem not_isLetter_of_isDigit {c : Char} (digit : isDigit c = true) : isLetter c = false := by
  simp only [isDigit, Bool.and_eq_true, decide_eq_true_eq] at digit
  refine Bool.eq_false_iff.mpr fun letter => ?_
  simp only [isLetter, Bool.and_eq_true, decide_eq_true_eq] at letter
  exact absurd (Char.le_trans letter.1 digit.2) (by decide)

/-- One spelling of a kind of token. -/
structure Name (t : Terminal) where
  text : String
  listed : text ∈ t.spellings

theorem Name.exists_cons {t : Terminal} (head : t ∈ heads) (name : Name t) :
    ∃ c more, name.text.toList = c :: more ∧ isLetter c = true := by
  have table : ∀ t ∈ heads, ∀ text ∈ t.spellings,
      text.toList.head?.any isLetter = true := by decide
  have front := table t head name.text name.listed
  cases letters : name.text.toList with
  | nil =>
    rw [letters] at front
    cases front
  | cons c more =>
    rw [letters] at front
    exact ⟨c, more, rfl, by simpa using front⟩

private theorem isPrefixOf_append_blank {spelling : List Char} (solid : ' ' ∉ spelling)
    (text rest : List Char) :
    spelling.isPrefixOf (text ++ ' ' :: rest) = spelling.isPrefixOf (text ++ [' ']) := by
  induction spelling generalizing text with
  | nil => simp
  | cons c more ih =>
    simp only [List.mem_cons, not_or] at solid
    cases text with
    | nil =>
      have other : (c == ' ') = false := beq_eq_false_iff_ne.mpr fun same => solid.1 same.symm
      simp [List.isPrefixOf, other]
    | cons d others => simp [List.isPrefixOf, ih solid.2]

/-- What a spelling takes of a name with a blank behind it does not depend on what follows. -/
private theorem match?_append_blank {t : Terminal} (head : t ∈ heads) (text rest : List Char) :
    t.match? (text ++ ' ' :: rest) = t.match? (text ++ [' ']) := by
  have letters : ∀ spelling ∈ t.spellings, ' ' ∉ spelling.toList := by
    cases t <;> decide
  unfold Terminal.match?
  rw [pattern_of_head head]
  simp only [Pattern.match?]
  congr 1
  have same : ∀ texts : List String, (∀ spelling ∈ texts, ' ' ∉ spelling.toList) →
      texts.find? (fun spelling => spelling.toList.isPrefixOf (text ++ ' ' :: rest)) =
        texts.find? (fun spelling => spelling.toList.isPrefixOf (text ++ [' '])) := by
    intro texts
    induction texts with
    | nil => exact fun _ => rfl
    | cons spelling more ih =>
      intro each
      rw [List.find?_cons, List.find?_cons, isPrefixOf_append_blank (each spelling (by simp)),
        ih fun other member => each other (List.mem_cons_of_mem _ member)]
  exact same _ letters

/-- Where a name stands, only its own kind of token matches, except that one name of a function of
vectors begins like a function of planes. -/
theorem match?_name {t u : Terminal} (head : t ∈ heads) (other : u ∈ heads) (name : Name t)
    (rest : List Char) :
    u.match? (name.text.toList ++ ' ' :: rest) =
      if u = t then some name.text.toList.length
      else if u = .planeFunction ∧ name.text = "normalize" then some 6
      else none := by
  have table : ∀ t ∈ heads, ∀ text ∈ t.spellings, ∀ u ∈ heads,
      u.match? (text.toList ++ [' ']) =
        if u = t then some text.toList.length
        else if u = .planeFunction ∧ text = "normalize" then some 6
        else none := by decide +kernel
  rw [match?_append_blank other]
  exact table t head name.text name.listed u other

theorem Name.skip_append {t : Terminal} (head : t ∈ heads) (name : Name t) (rest : List Char) :
    skip (name.text.toList ++ ' ' :: rest) = name.text.toList ++ ' ' :: rest :=
  skip_of_match? ((match?_name head head name rest).trans (if_pos rfl))

end SolidGeometry.Grammar
