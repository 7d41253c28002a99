namespace SolidGeometry.Text

/-- White space of Unicode. -/
def isWhite (c : Char) : Bool :=
  let n := c.toNat
  (9 ≤ n && n ≤ 13) || n == 32 || n == 0x85 || n == 0xa0 || n == 0x1680 ||
    (0x2000 ≤ n && n ≤ 0x200a) || n == 0x2028 || n == 0x2029 || n == 0x202f || n == 0x205f ||
    n == 0x3000

/-- White space and the four information separators. -/
def isBlank (c : Char) : Bool := isWhite c || (28 ≤ c.toNat && c.toNat ≤ 31)

/-- The text without the characters at its two ends that a test accepts. -/
def trimBy (accepts : Char → Bool) (text : List Char) : List Char :=
  ((text.dropWhile accepts).reverse.dropWhile accepts).reverse

def trim (text : List Char) : List Char := trimBy isBlank text

theorem dropWhile_eq_trimBy_append (accepts : Char → Bool) (text : List Char) :
    text.dropWhile accepts =
      trimBy accepts text ++ ((text.dropWhile accepts).reverse.takeWhile accepts).reverse := by
  rw [trimBy, ← List.reverse_append, List.takeWhile_append_dropWhile, List.reverse_reverse]

/-- Only accepted characters are removed. -/
theorem exists_trimBy (accepts : Char → Bool) (text : List Char) :
    ∃ front back, text = front ++ trimBy accepts text ++ back ∧
      (∀ c ∈ front, accepts c = true) ∧ ∀ c ∈ back, accepts c = true := by
  have removed : ∀ {c : Char} {l : List Char}, c ∈ l.takeWhile accepts → accepts c = true :=
    fun member => List.all_eq_true.mp List.all_takeWhile _ member
  refine ⟨text.takeWhile accepts, ((text.dropWhile accepts).reverse.takeWhile accepts).reverse,
    ?_, fun c member => removed member, fun c member => removed (List.mem_reverse.mp member)⟩
  rw [List.append_assoc, ← dropWhile_eq_trimBy_append, List.takeWhile_append_dropWhile]

/-- The first character that is left is not an accepted one. -/
theorem head?_trimBy (accepts : Char → Bool) (text : List Char) {c : Char}
    (first : (trimBy accepts text).head? = some c) : accepts c = false := by
  have stopped := List.head?_dropWhile_not accepts text
  rw [dropWhile_eq_trimBy_append, List.head?_append, first] at stopped
  simpa using stopped

/-- The last character that is left is not an accepted one. -/
theorem getLast?_trimBy (accepts : Char → Bool) (text : List Char) {c : Char}
    (last : (trimBy accepts text).getLast? = some c) : accepts c = false := by
  rw [trimBy, List.getLast?_reverse] at last
  have stopped := List.head?_dropWhile_not accepts (text.dropWhile accepts).reverse
  simpa [last] using stopped

/-- Nothing is removed from a text whose ends are not accepted. -/
theorem trimBy_eq_self {accepts : Char → Bool} {text : List Char}
    (first : ∀ c ∈ text.head?, accepts c = false) (last : ∀ c ∈ text.getLast?, accepts c = false) :
    trimBy accepts text = text := by
  have kept : ∀ l : List Char, (∀ c ∈ l.head?, accepts c = false) → l.dropWhile accepts = l := by
    intro l solid
    cases l with
    | nil => rfl
    | cons c more => simp [solid c rfl]
  rw [trimBy, kept text first, kept text.reverse (by rwa [List.head?_reverse]), List.reverse_reverse]

def strip (text : String) : String :=
  String.ofList (trim text.toList)

end SolidGeometry.Text
