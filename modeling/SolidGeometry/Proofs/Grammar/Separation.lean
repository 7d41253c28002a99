import SolidGeometry.Proofs.Grammar.Lexicon

namespace SolidGeometry.Grammar
open Number

/-- A sign may have separators behind it that belong to its number. -/
def isSign (c : Char) : Bool := c == '+' || c == '-'

/-- A text with separators behind it that belong to none of its tokens. Behind a sign there is
nothing but separators. -/
structure Apart (front back : List Char) : Prop where
  separators : ∀ c ∈ back.head?, isSeparator c = true
  solid : ∀ c ∈ front.getLast?, isSeparator c = false
  unsigned : (∀ c ∈ front.getLast?, isSign c = false) ∨ ∀ c ∈ back, isSeparator c = true

variable {front back : List Char}

theorem Apart.drop (apart : Apart front back) (k : Nat) : Apart (front.drop k) back := by
  have last : ∀ c ∈ (front.drop k).getLast?, c ∈ front.getLast? := by
    intro c member
    rw [List.getLast?_drop] at member
    split at member
    · cases member
    · exact member
  exact ⟨apart.separators, fun c member => apart.solid c (last c member),
    apart.unsigned.imp (fun none c member => none c (last c member)) id⟩

theorem separator_cases {c : Char} (separator : isSeparator c = true) :
    c = ' ' ∨ c = '\t' ∨ c = ',' := by
  simpa [isSeparator, or_assoc] using separator

theorem not_isDigit_of_isSeparator {c : Char} (separator : isSeparator c = true) :
    isDigit c = false := by
  rcases separator_cases separator with rfl | rfl | rfl <;> rfl

theorem not_isLetter_of_isSeparator {c : Char} (separator : isSeparator c = true) :
    isLetter c = false := by
  rcases separator_cases separator with rfl | rfl | rfl <;> rfl

theorem isSeparator_of_isInnerBlank {c : Char} (blank : isInnerBlank c = true) :
    isSeparator c = true := by
  simp only [isInnerBlank, Bool.or_eq_true, beq_iff_eq] at blank
  rcases blank with rfl | rfl <;> rfl

theorem ends_of_separators (separators : ∀ c ∈ back.head?, isSeparator c = true) :
    Ends back = true := by
  cases back with
  | nil => rfl
  | cons c more =>
    rcases separator_cases (separators c rfl) with rfl | rfl | rfl <;> rfl

/-- A character that separators lack is not sought among them. -/
theorem takeWhile_append_of_separators {accepts : Char → Bool}
    (none : ∀ c, isSeparator c = true → accepts c = false)
    (separators : ∀ c ∈ back.head?, isSeparator c = true) :
    (front ++ back).takeWhile accepts = front.takeWhile accepts := by
  induction front with
  | nil =>
    cases back with
    | nil => rfl
    | cons c more => simp [none c (separators c rfl)]
  | cons c more ih =>
    by_cases accepted : accepts c = true
    · simp only [List.cons_append, List.takeWhile_cons, accepted, if_true]
      rw [ih]
    · simp [accepted]

theorem isPrefixOf_append_of_separators {spelling : List Char}
    (solid : ∀ c ∈ spelling, isSeparator c = false)
    (separators : ∀ c ∈ back.head?, isSeparator c = true) :
    spelling.isPrefixOf (front ++ back) = spelling.isPrefixOf front := by
  induction spelling generalizing front with
  | nil => simp
  | cons s rest ih =>
    cases front with
    | nil =>
      cases back with
      | nil => rfl
      | cons c more =>
        have other : s ≠ c := by
          rintro rfl
          have clash := (solid s (by simp)).symm.trans (separators s rfl)
          cases clash
        simp [List.isPrefixOf, other]
    | cons c more =>
      simp only [List.cons_append, List.isPrefixOf]
      rw [ih fun d member => solid d (List.mem_cons_of_mem _ member)]

private theorem solid_spellings (t : Terminal) :
    ∀ spelling ∈ t.spellings, ∀ c ∈ spelling.toList, isSeparator c = false := by
  have table : ∀ spelling ∈ t.spellings,
      spelling.toList.all (fun c => !isSeparator c) = true := by
    cases t <;> decide
  intro spelling listed c member
  simpa using List.all_eq_true.mp (table spelling listed) c member

/-- Behind a sign at the end of a text, or behind a sign and blanks, there are only separators. -/
private theorem digits_behind_sign {sign : Char} {more : List Char} (signed : isSign sign = true)
    (apart : Apart (sign :: more) back) :
    more.dropWhile isInnerBlank ≠ [] ∨ ∀ c ∈ back, isSeparator c = true := by
  rcases apart.unsigned with unsigned | all
  · left
    intro empty
    have blank : ∀ c ∈ more, isInnerBlank c = true := by simpa using empty
    cases last : more.getLast? with
    | none =>
      obtain rfl := List.getLast?_eq_none_iff.mp last
      exact absurd signed (by simp [unsigned sign rfl])
    | some c =>
      have member := List.mem_of_getLast? last
      have separator := isSeparator_of_isInnerBlank (blank c member)
      have solid := apart.solid c (by simp [List.getLast?_cons, last])
      exact absurd separator (by simp [solid])
  · exact .inr all

/-- The blanks behind a sign end where they did, unless no digits follow the sign. -/
private theorem blanks_behind_sign {sign : Char} {more : List Char} (signed : isSign sign = true)
    (apart : Apart (sign :: more) back) :
    (more ++ back).dropWhile isInnerBlank = more.dropWhile isInnerBlank ++ back ∨
      (more.dropWhile isInnerBlank).takeWhile isDigit = [] ∧
        ((more ++ back).dropWhile isInnerBlank).takeWhile isDigit = [] := by
  by_cases empty : more.dropWhile isInnerBlank = []
  · right
    have all := (digits_behind_sign signed apart).resolve_left (absurd empty)
    rw [List.dropWhile_append, empty, List.isEmpty_nil, if_pos rfl]
    refine ⟨rfl, ?_⟩
    cases rest : back.dropWhile isInnerBlank with
    | nil => rfl
    | cons c others =>
      have member : c ∈ back := (List.dropWhile_sublist _).subset (by rw [rest]; simp)
      simp [not_isDigit_of_isSeparator (all c member)]
  · left
    rw [List.dropWhile_append, if_neg (by simpa using empty)]

private theorem scanSign_of_not_isSign {c : Char} (unsigned : isSign c = false)
    (more : List Char) : scanSign (c :: more) = (.absent, c :: more) := by
  simp only [isSign, Bool.or_eq_false_iff, beq_eq_false_iff_ne] at unsigned
  exact scanSign_of_ne unsigned.1 unsigned.2 more

/-- The sign is scanned as if the separators were not there, unless no digits follow it. -/
private theorem scanSign_append_of_apart (apart : Apart front back) :
    scanSign (front ++ back) = ((scanSign front).1, (scanSign front).2 ++ back) ∨
      (scanSign front).2.takeWhile isDigit = [] ∧
        (scanSign (front ++ back)).2.takeWhile isDigit = [] := by
  cases front with
  | nil =>
    left
    cases back with
    | nil => rfl
    | cons c more =>
      refine scanSign_of_not_isSign ?_ more
      rcases separator_cases (apart.separators c rfl) with rfl | rfl | rfl <;> rfl
  | cons c more =>
    by_cases signed : isSign c = true
    · have listed : c = '+' ∨ c = '-' := by simpa [isSign] using signed
      rcases listed with rfl | rfl
      · exact (blanks_behind_sign signed apart).imp
          (fun joined => congrArg (Prod.mk Sign.plus) joined) id
      · exact (blanks_behind_sign signed apart).imp
          (fun joined => congrArg (Prod.mk Sign.minus) joined) id
    · left
      have unsigned : isSign c = false := by simpa using signed
      rw [List.cons_append, scanSign_of_not_isSign unsigned, scanSign_of_not_isSign unsigned]
      rfl

/-- A number in front of separators is scanned as if they were not there. -/
theorem scan?_append_of_apart (apart : Apart front back) :
    Literal.scan? (front ++ back) =
      (Literal.scan? front).map fun scanned => (scanned.1, scanned.2 ++ back) := by
  have ends := ends_of_separators apart.separators
  unfold Literal.scan?
  dsimp only
  rcases scanSign_append_of_apart apart with joined | ⟨before, after⟩
  · have parts := takeWhile_append_of_ends (scanSign front).2 ends
    rw [joined]
    dsimp only
    rw [parts.1, parts.2, scanTail_append _ ends]
    split <;> rfl
  · rw [if_pos before, if_pos after]
    rfl

/-- A token takes of a text what it takes of it with separators behind. -/
theorem match?_append_of_apart (t : Terminal) (apart : Apart front back) :
    t.match? (front ++ back) = t.match? front := by
  unfold Terminal.match?
  cases shape : t.pattern with
  | spellings texts =>
    have spelled : t.spellings = texts := by simp [Terminal.spellings, shape]
    have solid := solid_spellings t
    rw [spelled] at solid
    have same : texts.find? (fun spelling => spelling.toList.isPrefixOf (front ++ back)) =
        texts.find? fun spelling => spelling.toList.isPrefixOf front := by
      refine List.find?_congr ?_
      intro spelling member
      exact isPrefixOf_append_of_separators (solid spelling member) apart.separators
    simp only [Pattern.match?, same]
  | letters =>
    have taken : (front ++ back).takeWhile isLetter = front.takeWhile isLetter :=
      takeWhile_append_of_separators (fun c => not_isLetter_of_isSeparator) apart.separators
    simp only [Pattern.match?, taken]
  | literal =>
    simp only [Pattern.match?, scan?_append_of_apart apart, Option.map_map]
    congr 1
    funext scanned
    simp only [Function.comp_apply, List.length_append]
    omega

/-- Separators inside a text end inside it. -/
theorem separators?_append_of_apart (apart : Apart front back) (some : front ≠ []) :
    separators? (front ++ back) = separators? front := by
  have stops : ∀ {front : List Char}, front ≠ [] → (∀ c ∈ front.getLast?, isSeparator c = false) →
      (front ++ back).takeWhile isSeparator = front.takeWhile isSeparator := by
    intro front some solid
    rw [List.takeWhile_append]
    refine if_neg fun whole => ?_
    have last := solid _ (List.getLast?_eq_some_getLast some)
    have all : front.takeWhile isSeparator = front :=
      (List.takeWhile_prefix isSeparator).eq_of_length whole
    have member : front.getLast some ∈ front.takeWhile isSeparator := by
      rw [all]
      exact List.getLast_mem some
    have separator : isSeparator (front.getLast some) = true :=
      List.all_eq_true.mp List.all_takeWhile _ member
    rw [last] at separator
    cases separator
  unfold separators?
  rw [stops some apart.solid]

end SolidGeometry.Grammar
