import SolidGeometry.Proofs.Grammar.Respacing

namespace SolidGeometry.Grammar

variable {text front back run : List Char}

/-- A text in which every run of separators that does not follow a sign is one blank. -/
def squeezed : List Char → List Char
  | [] => []
  | c :: rest =>
    if isSign c then c :: (rest.takeWhile isSeparator ++ squeezed (rest.dropWhile isSeparator))
    else if isSeparator c then ' ' :: squeezed (rest.dropWhile isSeparator)
    else c :: squeezed rest
termination_by text => text.length
decreasing_by
  · exact Nat.lt_succ_of_le (List.dropWhile_sublist _).length_le
  · exact Nat.lt_succ_of_le (List.dropWhile_sublist _).length_le
  · exact Nat.lt_succ_self _

theorem head?_dropWhile_isSeparator (text : List Char) :
    ∀ c ∈ (text.dropWhile isSeparator).head?, isSeparator c = false := by
  intro c first
  have stopped := List.head?_dropWhile_not isSeparator text
  rw [Option.mem_def.mp first] at stopped
  simpa using stopped

theorem separators_takeWhile (text : List Char) :
    ∀ c ∈ text.takeWhile isSeparator, isSeparator c = true :=
  fun c member => List.all_eq_true.mp List.all_takeWhile c member

/-- What is behind a run of separators does not begin with one. -/
private theorem not_separator_head?_dropWhile (text : List Char) :
    ¬ ∃ c ∈ (text.dropWhile isSeparator).head?, isSeparator c = true := by
  rintro ⟨c, first, separator⟩
  rw [head?_dropWhile_isSeparator text c first] at separator
  cases separator

/-- A run of separators ends in front of a character that is none. -/
private theorem span_append_cons {d : Char} (solid : isSeparator d = false)
    (rest more : List Char) :
    (rest ++ d :: more).takeWhile isSeparator = rest.takeWhile isSeparator ∧
      (rest ++ d :: more).dropWhile isSeparator = rest.dropWhile isSeparator ++ d :: more := by
  induction rest with
  | nil => simp [solid]
  | cons c rest ih => by_cases separator : isSeparator c <;> simp [separator, ih]

/-- A text behind which a run of separators begins that belongs to no number. -/
def Open (front : List Char) : Prop :=
  ∀ c ∈ front.getLast?, isSeparator c = false ∧ isSign c = false

/-- No run goes on across a character that is neither a separator nor a sign. -/
theorem squeezed_append {d : Char} (solid : isSeparator d = false) (unsigned : isSign d = false)
    (front more : List Char) :
    squeezed (front ++ d :: more) = squeezed (front ++ [d]) ++ squeezed more := by
  induction front using squeezed.induct with
  | case1 => simp [squeezed, solid, unsigned]
  | case2 c rest sign ih =>
    obtain ⟨taken, dropped⟩ := span_append_cons solid rest more
    obtain ⟨alone, left⟩ := span_append_cons solid rest []
    rw [List.cons_append, squeezed.eq_2, if_pos sign, taken, dropped, ih, List.cons_append,
      squeezed.eq_2, if_pos sign, alone, left, List.cons_append, List.append_assoc]
  | case3 c rest unsigned separator ih =>
    obtain ⟨_, dropped⟩ := span_append_cons solid rest more
    obtain ⟨_, left⟩ := span_append_cons solid rest []
    rw [List.cons_append, squeezed.eq_2, if_neg unsigned, if_pos separator, dropped, ih,
      List.cons_append, squeezed.eq_2, if_neg unsigned, if_pos separator, left, List.cons_append]
  | case4 c rest unsigned solid ih =>
    rw [List.cons_append, squeezed.eq_2, if_neg unsigned, if_neg solid, ih, List.cons_append,
      squeezed.eq_2, if_neg unsigned, if_neg solid, List.cons_append]

/-- Whatever run of separators follows a text that may be followed by one, it is squeezed alike. This
checks the definition of `squeezed`, by which texts are said to differ only in their separators. -/
theorem squeezed_run (free : Open front) (some : run ≠ [])
    (separators : ∀ c ∈ run, isSeparator c = true)
    (maximal : ∀ c ∈ back.head?, isSeparator c = false) :
    squeezed (front ++ (run ++ back)) = squeezed front ++ ' ' :: squeezed back := by
  have alone : squeezed (run ++ back) = ' ' :: squeezed back := by
    obtain ⟨c, more, rfl⟩ := List.exists_cons_of_ne_nil some
    have separator := separators c (by simp)
    have unsigned : ¬ isSign c = true := by
      rcases separator_cases separator with rfl | rfl | rfl <;> decide
    have rest : (more ++ back).dropWhile isSeparator = back := by
      rw [List.dropWhile_append_of_pos fun d member => separators d (List.mem_cons_of_mem c member)]
      cases back with
      | nil => rfl
      | cons d others => simp [maximal d rfl]
    rw [List.cons_append, squeezed.eq_2, if_neg unsigned, if_pos separator, rest]
  rcases List.eq_nil_or_concat front with rfl | ⟨before, d, rfl⟩
  · rw [squeezed.eq_1, List.nil_append, List.nil_append, alone]
  · obtain ⟨solid, unsigned⟩ := free d (by simp)
    rw [List.concat_eq_append, List.append_assoc, List.singleton_append,
      squeezed_append solid unsigned, alone]

/-- What is squeezed behind any text reads like before, unless a run there goes on from the text. -/
private theorem alike_append_squeezed (text front : List Char)
    (free : (∃ c ∈ text.head?, isSeparator c = true) → Open front) :
    Alike (front ++ text) (front ++ squeezed text) := by
  induction text using squeezed.induct generalizing front with
  | case1 =>
    rw [squeezed]
    exact .refl _
  | case2 c rest sign ih =>
    have parts := List.takeWhile_append_dropWhile (p := isSeparator) (l := rest)
    have later := ih (front ++ c :: rest.takeWhile isSeparator)
      (absurd · (not_separator_head?_dropWhile rest))
    rw [squeezed, if_pos sign]
    rw [List.append_assoc, List.append_assoc, List.cons_append, List.cons_append, parts] at later
    exact later
  | case3 c rest unsigned separator ih =>
    have parts := List.takeWhile_append_dropWhile (p := isSeparator) (l := rest)
    have may := free ⟨c, rfl, separator⟩
    have here : Alike (front ++ ((c :: rest.takeWhile isSeparator) ++ rest.dropWhile isSeparator))
        (front ++ ' ' :: rest.dropWhile isSeparator) := by
      refine alike_run (by simp) ?_ (fun d last => (may d last).1) (fun d last => (may d last).2)
        (head?_dropWhile_isSeparator rest)
      intro d member
      rcases List.mem_cons.mp member with rfl | run
      · exact separator
      · exact separators_takeWhile rest d run
    have later := ih (front ++ [' ']) (absurd · (not_separator_head?_dropWhile rest))
    rw [List.cons_append, parts] at here
    rw [squeezed, if_neg unsigned, if_pos separator]
    rw [List.append_assoc, List.append_assoc] at later
    exact here.trans later
  | case4 c rest unsigned solid ih =>
    have later := ih (front ++ [c]) ?_
    · rw [squeezed, if_neg unsigned, if_neg solid]
      rw [List.append_assoc, List.append_assoc] at later
      exact later
    · intro _ d last
      rw [List.getLast?_append_of_ne_nil _ (by simp)] at last
      cases last
      exact ⟨by simpa using solid, by simpa using unsigned⟩

theorem alike_squeezed (text : List Char) : Alike text (squeezed text) :=
  alike_append_squeezed text [] fun _ c last => by cases last

theorem trimBy_append {accepts : Char → Bool} (ahead : ∀ c ∈ front, accepts c = true)
    (behind : ∀ c ∈ back, accepts c = true) :
    Text.trimBy accepts (front ++ text ++ back) = Text.trimBy accepts text := by
  have start : (front ++ text ++ back).dropWhile accepts = (text ++ back).dropWhile accepts := by
    rw [List.append_assoc, List.dropWhile_append_of_pos ahead]
  unfold Text.trimBy
  rw [start, List.dropWhile_append]
  split
  · rename_i empty
    rw [List.isEmpty_iff.mp empty]
    have none : back.dropWhile accepts = [] := List.dropWhile_eq_nil_iff.mpr behind
    rw [none]
  · rw [List.reverse_append, List.dropWhile_append_of_pos fun c member =>
      behind c (List.mem_reverse.mp member)]

/-- A text reads like the same without the separators at its ends. -/
theorem alike_trimBy (text : List Char) : Alike text (Text.trimBy isSeparator text) := by
  obtain ⟨front, back, joined, ahead, behind⟩ := Text.exists_trimBy isSeparator text
  generalize core : Text.trimBy isSeparator text = inner at joined
  have first : ∀ c ∈ inner.head?, isSeparator c = false :=
    fun c found => Text.head?_trimBy isSeparator text (core ▸ found)
  have last : ∀ c ∈ inner.getLast?, isSeparator c = false :=
    fun c found => Text.getLast?_trimBy isSeparator text (core ▸ found)
  rw [joined]
  by_cases empty : inner = []
  · subst empty
    rw [List.append_nil]
    have all : ∀ c ∈ front ++ back, isSeparator c = true := by
      intro c member
      exact (List.mem_append.mp member).elim (ahead c) (behind c)
    have alike : Alike (front ++ back ++ []) [] := alike_behind all (by simp)
    rw [List.append_nil] at alike
    exact alike
  · have whole : Alike (front ++ (inner ++ back)) (inner ++ back) := by
      refine alike_behind ahead fun c found => first c ?_
      rw [List.head?_append_of_ne_nil _ empty] at found
      exact found
    rw [List.append_assoc]
    exact whole.trans (alike_before behind last)

/-- A text whose blanks are all separators reads like the same without the blanks at its ends. -/
theorem alike_trim (blanks : ∀ c ∈ text, Text.isBlank c = true → isSeparator c = true) :
    Alike (Text.trim text) text := by
  obtain ⟨front, back, joined, ahead, behind⟩ := Text.exists_trimBy Text.isBlank text
  have same : Text.trimBy isSeparator text = Text.trimBy isSeparator (Text.trim text) := by
    conv => lhs; rw [joined]
    refine trimBy_append (fun c member => ?_) (fun c member => ?_)
    · refine blanks c ?_ (ahead c member)
      rw [joined]
      simp [member]
    · refine blanks c ?_ (behind c member)
      rw [joined]
      simp [member]
  have trimmed := alike_trimBy (Text.trim text)
  rw [← same] at trimmed
  exact trimmed.trans (alike_trimBy text).symm

/-- Texts that differ only in runs of separators which do not follow a sign are both read as the same
tree, or are both not read. -/
theorem read_respaced {text other : String}
    (blanks : ∀ c ∈ text.toList, Text.isBlank c = true → c = ' ' ∨ c = '\t')
    (others : ∀ c ∈ other.toList, Text.isBlank c = true → c = ' ' ∨ c = '\t')
    (same : squeezed text.toList = squeezed other.toList) :
    (∃ e f, read text = .error e ∧ read other = .error f) ∨
      ∃ tree, read text = .ok tree ∧ read other = .ok tree := by
  have apart : ∀ c, c = ' ' ∨ c = '\t' → isSeparator c = true := by
    rintro c (rfl | rfl) <;> rfl
  have first : Alike (Text.trim text.toList) (squeezed text.toList) :=
    (alike_trim fun c member blank => apart c (blanks c member blank)).trans (alike_squeezed _)
  have second : Alike (Text.trim other.toList) (squeezed other.toList) :=
    (alike_trim fun c member blank => apart c (others c member blank)).trans (alike_squeezed _)
  rw [← same] at second
  have alike := first.trans second.symm
  cases found : read text with
  | ok tree => exact .inr ⟨tree, rfl, (alike tree).mp found⟩
  | error e =>
    cases other_found : read other with
    | ok tree =>
      have clash := (alike tree).mpr other_found
      rw [show readTrimmed (Text.trim text.toList) = read text from rfl, found] at clash
      cases clash
    | error f => exact .inl ⟨e, f, rfl, rfl⟩

/-- A plus that may link two vectors or sign a number, with the separators spread out. -/
theorem read_respaced_link :
    let text := "1 2 3 + 4 5 6"
    let other := "1,2\t3, + 4 5 6"
    (∀ c ∈ text.toList, Text.isBlank c = true → c = ' ' ∨ c = '\t') ∧
      (∀ c ∈ other.toList, Text.isBlank c = true → c = ' ' ∨ c = '\t') ∧
      squeezed text.toList = squeezed other.toList ∧
      ((∃ e f, read text = .error e ∧ read other = .error f) ∨
        ∃ tree, read text = .ok tree ∧ read other = .ok tree) := by
  intro text other
  have blanks : ∀ c ∈ text.toList, Text.isBlank c = true → c = ' ' ∨ c = '\t' := by
    simp [text, Text.isBlank, Text.isWhite]
  have others : ∀ c ∈ other.toList, Text.isBlank c = true → c = ' ' ∨ c = '\t' := by
    simp [other, Text.isBlank, Text.isWhite]
  have same : squeezed text.toList = squeezed other.toList := by
    simp [text, other, squeezed, isSign, isSeparator]
  exact ⟨blanks, others, same, read_respaced blanks others same⟩

end SolidGeometry.Grammar
