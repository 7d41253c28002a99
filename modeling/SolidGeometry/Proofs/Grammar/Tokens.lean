import SolidGeometry.Proofs.Grammar.Lexicon

namespace SolidGeometry.Grammar
open Number

/-- A literal at the front of a text is a literal by itself. -/
theorem exists_numeral {text rest : List Char} {literal : Literal}
    (scanned : Literal.scan? text = some (literal, rest)) :
    ∃ w, text = w ++ rest ∧ Literal.scan? w = some (literal, []) := by
  obtain ⟨l, rfl, joined⟩ := exists_spacedLiteral scanned
  exact ⟨l.text, joined, l.scan?_text⟩

/-- The text of a token is what its kind takes of it. -/
def Token.Fits (t : Token) : Prop := t.terminal.match? t.text = some t.text.length

theorem match?_spelling {t : Terminal} {spelling : String} (listed : spelling ∈ t.spellings) :
    t.match? spelling.toList = some spelling.toList.length := by
  revert spelling
  cases t <;> decide

theorem Token.fits_of_match? {t : Terminal} {text : List Char} {size : Nat}
    (found : t.match? text = some size) : Token.Fits ⟨t, text.take size⟩ := by
  have bounds := match?_bounds found
  unfold Fits
  dsimp only
  rw [List.length_take_of_le bounds.2]
  unfold Terminal.match? at found ⊢
  cases shape : t.pattern with
  | spellings texts =>
    rw [shape] at found
    simp only [Pattern.match?, Option.map_eq_some_iff] at found
    obtain ⟨spelling, first, rfl⟩ := found
    have listed : spelling ∈ t.spellings := by
      unfold Terminal.spellings
      rw [shape]
      exact List.mem_of_find?_eq_some first
    have front := List.isPrefixOf_iff_prefix.mp
      (List.find?_some (p := fun spelling : String => spelling.toList.isPrefixOf text) first)
    rw [← String.length_toList, ← List.prefix_iff_eq_take.mp front, ← shape]
    exact match?_spelling listed
  | letters =>
    rw [shape] at found
    simp only [Pattern.match?] at found ⊢
    split at found
    · cases found
    · rename_i count taken
      obtain rfl := Option.some.inj found
      have all : ∀ c ∈ text.take count.succ, isLetter c = true := by
        rw [← taken, ← List.prefix_iff_eq_take.mp (List.takeWhile_prefix isLetter)]
        exact fun c member => List.all_eq_true.mp List.all_takeWhile c member
      rw [List.takeWhile_eq_self_iff.mpr all, List.length_take_of_le bounds.2]
  | literal =>
    rw [shape] at found
    simp only [Pattern.match?, Option.map_eq_some_iff] at found ⊢
    obtain ⟨⟨literal, rest⟩, scanned, rfl⟩ := found
    obtain ⟨w, rfl, whole⟩ := exists_numeral scanned
    have taken : (w ++ rest).take ((w ++ rest).length - rest.length) = w := by simp
    refine ⟨(literal, []), by rw [taken]; exact whole, ?_⟩
    rw [taken]
    simp

/-- All tokens that are cut off a text fit. -/
theorem Cut.fits {text rest : List Char} {tokens : List Token} (cut : Cut text tokens rest) :
    ∀ t ∈ tokens, t.Fits := by
  induction cut with
  | nil => exact fun t member => absurd member List.not_mem_nil
  | cons found later ih =>
    intro t member
    rcases List.mem_cons.mp member with rfl | behind
    · exact Token.fits_of_match? found
    · exact ih t behind

/-- The text of a token with a few spellings is one of them. -/
theorem Token.Fits.spelled {t : Terminal} {text : List Char} (fits : Token.Fits ⟨t, text⟩)
    {texts : List String} (shape : t.pattern = .spellings texts) : String.ofList text ∈ texts := by
  unfold Token.Fits Terminal.match? at fits
  rw [shape] at fits
  simp only [Pattern.match?, Option.map_eq_some_iff] at fits
  obtain ⟨spelling, first, size⟩ := fits
  have front := List.isPrefixOf_iff_prefix.mp
    (List.find?_some (p := fun spelling : String => spelling.toList.isPrefixOf text) first)
  have same : spelling.toList = text := front.eq_of_length (by rw [String.length_toList, size])
  rw [← same, String.ofList_toList]
  exact List.mem_of_find?_eq_some first

/-- The text of a number token is one literal. -/
theorem Token.Fits.numeral {text : List Char} (fits : Token.Fits ⟨.number, text⟩) :
    ∃ literal, Literal.scan? text = some (literal, []) := by
  obtain ⟨l, rfl⟩ := match?_number_iff.mp fits
  exact ⟨_, l.scan?_text⟩

end SolidGeometry.Grammar
