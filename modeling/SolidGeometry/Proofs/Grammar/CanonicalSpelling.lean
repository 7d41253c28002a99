import SolidGeometry.Proofs.Grammar.Canonical

namespace SolidGeometry.Grammar.Canonical

variable {row : List Symbol} {later : Derivation row} {text rest out : List Char}

theorem trees_lift {n m : Nonterminal} (order : Nat) (member : unitRule order n m ∈ n.rules)
    (d : Derivation (.nonterminal m :: row)) : (lift order member d).trees = d.trees := by
  cases d with
  | rule r inner parts later =>
    simp [lift, Derivation.trees, unitRule]

theorem Literal.trees_derive (l : Literal) (later : Derivation row) :
    (l.derive later).trees = l.tree :: later.trees := by
  cases l <;> rfl

theorem Kind.trees_toLiteral (kind : Kind) (d : Derivation (kind.symbol :: row)) :
    (kind.toLiteral d).trees = d.trees := by
  cases kind <;> exact trees_lift _ _ d

theorem Slot.trees_ofKind (slot : Slot) (kind : Kind) (fits : slot.allows kind = true)
    (d : Derivation (kind.symbol :: row)) : (slot.ofKind kind fits d).trees = d.trees := by
  cases slot with
  | any => exact (trees_lift _ _ _).trans (kind.trees_toLiteral d)
  | _ => cases kind <;> first | exact trees_lift _ _ d | cases fits

theorem Slot.trees_ofNested (slot : Slot) (d : Derivation (.nonterminal .nested :: row)) :
    (slot.ofNested d).trees = d.trees := by
  cases slot <;> exact trees_lift _ _ d

mutual

theorem Call.trees_derive {row : List Symbol} (later : Derivation row) :
    ∀ c : Call, (c.derive later).trees = c.tree :: later.trees
  | .vectorFunction name operand =>
    congrArg (fun parts => Tree.node .vectorFunction (nameTree name :: parts) :: later.trees)
      (operand.trees_derive .nil)
  | .pairFunction name first second =>
    congrArg (fun parts => Tree.node .vectorFunction (nameTree name :: parts) :: later.trees)
      ((first.trees_derive _).trans (congrArg (first.tree :: ·) (second.trees_derive .nil)))
  | .pointOnLine _ operand t =>
    congrArg (fun parts => Tree.node .pointOnLine parts :: later.trees)
      (operand.trees_derive (Numeral.derive t.toNumeral .nil))
  | .planeFunction name operand =>
    congrArg (fun parts => Tree.node .planeFunction (nameTree name :: parts) :: later.trees)
      (operand.trees_derive .nil)
  | .pointOnPlane _ operand s t =>
    congrArg (fun parts => Tree.node .pointOnPlane parts :: later.trees)
      (operand.trees_derive (Numeral.derive s.toNumeral (Numeral.derive t.toNumeral .nil)))
  | .lineThroughPoints _ first second =>
    congrArg (fun parts => Tree.node .lineThroughPoints parts :: later.trees)
      ((first.trees_derive _).trans (congrArg (first.tree :: ·) (second.trees_derive .nil)))
  | .planeThroughThree _ first second third =>
    congrArg (fun parts => Tree.node .planeThroughPoints parts :: later.trees)
      ((first.trees_derive _).trans (congrArg (first.tree :: ·)
        ((second.trees_derive _).trans (congrArg (second.tree :: ·) (third.trees_derive .nil)))))
  | .planeThroughTwo _ first second =>
    congrArg (fun parts => Tree.node .planeThroughPoints parts :: later.trees)
      ((first.trees_derive _).trans (congrArg (first.tree :: ·) (second.trees_derive .nil)))
  | .generic name first second =>
    congrArg (fun parts => Tree.node .generic (nameTree name :: parts) :: later.trees)
      ((first.trees_derive _).trans (congrArg (first.tree :: ·) (second.trees_derive .nil)))

theorem Operand.trees_derive {row : List Symbol} {slot : Slot} (later : Derivation row) :
    ∀ o : Operand slot, (o.derive later).trees = o.tree :: later.trees
  | .literal l fits => by
    rw [Operand.derive, slot.trees_ofKind, l.trees_derive, Operand.tree]
  | .nested c => by
    rw [Operand.derive, slot.trees_ofNested, Operand.tree]
    simp [Derivation.trees, nestedRule, c.trees_derive, Terminal.isKept]

end

theorem Expression.trees_derivation (e : Expression) : e.derivation.trees = [e.tree] := by
  cases e with
  | literal l =>
    exact (trees_lift _ _ _).trans ((l.kind.trees_toLiteral _).trans (l.trees_derive .nil))
  | call c => exact (trees_lift _ _ _).trans (c.trees_derive .nil)

theorem cut_blank {tokens : List Token} (cut : Cut text tokens out) :
    Cut (' ' :: text) tokens out :=
  cut.of_skip (show skip text = skip (' ' :: text) from rfl)

theorem cut_comma {tokens : List Token} (cut : Cut text tokens out) :
    Cut (',' :: ' ' :: text) tokens out :=
  cut.of_skip (show skip text = skip (',' :: ' ' :: text) from rfl)

theorem cut_token {t : Terminal} {w : List Char} {tokens : List Token}
    (found : t.match? (w ++ rest) = some w.length) (cut : Cut rest tokens out) :
    Cut (w ++ rest) (⟨t, w⟩ :: tokens) out := by
  have front := skip_of_match? found
  have whole : Cut (w ++ rest) (⟨t, (skip (w ++ rest)).take w.length⟩ :: tokens) out :=
    .cons (by rw [front]; exact found) (by rw [front, List.drop_left]; exact cut)
  rw [front, List.take_left] at whole
  exact whole

theorem cut_rule {n : Nonterminal} {r : Rule} {member : r ∈ n.rules} {parts : Derivation r.symbols}
    (front : Cut text parts.tokens (skip rest)) (back : Cut rest later.tokens out) :
    Cut text (Derivation.rule r member parts later).tokens out :=
  front.append (back.of_skip (skip_skip _).symm)

theorem cut_numeral (w : Numeral) (ends : Ends rest = true) (cut : Cut rest later.tokens out) :
    Cut (w.text ++ rest) (Numeral.derive w later).tokens out :=
  cut_token (w.match?_append ends) cut

theorem Triple.cut (v : Triple) (cut : Cut rest later.tokens out) :
    Cut (v.write rest) (v.derive later).tokens out := by
  refine cut_rule ?_ cut
  refine cut_token (t := .opening) (w := ['(']) rfl ?_
  refine cut_numeral v.x.toNumeral rfl (cut_comma ?_)
  refine cut_numeral v.y.toNumeral rfl (cut_comma ?_)
  refine cut_numeral v.z.toNumeral rfl ?_
  exact cut_token (t := .closing) (w := [')']) rfl .nil

theorem Triple.cut_linked (v : Triple) {parameter : Char} (letter : isLetter parameter = true)
    (cut : Cut rest later.tokens out) :
    Cut (v.writeLinked parameter rest) (v.deriveLinked parameter later).tokens out := by
  refine cut_blank (cut_rule ?_ (v.cut cut))
  refine cut_token (t := .plus) (w := ['+']) rfl (cut_blank ?_)
  refine cut_token (t := .word) (w := [parameter]) (match?_word letter _) (cut_blank ?_)
  exact cut_token (t := .star) (w := ['*']) rfl (cut_blank .nil)

theorem Literal.cut (l : Literal) (cut : Cut rest later.tokens out) :
    Cut (l.write rest) (l.derive later).tokens out := by
  cases l with
  | vector v => exact v.cut cut
  | line base direction =>
    exact cut_rule (base.cut (direction.cut_linked rfl .nil)) cut
  | span base first second =>
    exact cut_rule (base.cut (first.cut_linked rfl (second.cut_linked rfl .nil))) cut
  | plane a b c d =>
    refine cut_rule ?_ cut
    refine cut_numeral a.toNumeral rfl (cut_token (t := .x) (w := ['x']) rfl ?_)
    refine cut_numeral b.toNumeral rfl (cut_token (t := .y) (w := ['y']) rfl ?_)
    refine cut_numeral c.toNumeral rfl (cut_token (t := .z) (w := ['z']) rfl ?_)
    refine cut_numeral d.toNumeral rfl (cut_token (t := .equals) (w := ['=']) rfl ?_)
    exact cut_token (t := .zero) (w := ['0']) rfl .nil

theorem tokens_lift {n m : Nonterminal} (order : Nat) (member : unitRule order n m ∈ n.rules)
    (d : Derivation (.nonterminal m :: row)) : (lift order member d).tokens = d.tokens := by
  cases d with
  | rule r inner parts later => simp [lift, Derivation.tokens]

theorem Kind.tokens_toLiteral (kind : Kind) (d : Derivation (kind.symbol :: row)) :
    (kind.toLiteral d).tokens = d.tokens := by
  cases kind <;> exact tokens_lift _ _ d

theorem Slot.tokens_ofKind (slot : Slot) (kind : Kind) (fits : slot.allows kind = true)
    (d : Derivation (kind.symbol :: row)) : (slot.ofKind kind fits d).tokens = d.tokens := by
  cases slot with
  | any => exact (tokens_lift _ _ _).trans (kind.tokens_toLiteral d)
  | _ => cases kind <;> first | exact tokens_lift _ _ d | cases fits

theorem Slot.tokens_ofNested (slot : Slot) (d : Derivation (.nonterminal .nested :: row)) :
    (slot.ofNested d).tokens = d.tokens := by
  cases slot <;> exact tokens_lift _ _ d

theorem Shape.cut (s : Shape) (member : s ∈ shapes) (name : Name s.head)
    {body : List Char} {parts : Derivation (s.operands.map .nonterminal)}
    (front : Cut body parts.tokens (skip rest)) (back : Cut rest later.tokens out) :
    Cut (name.text.toList ++ ' ' :: body)
      (s.derive member name.text.toList parts later).tokens out := by
  refine cut_rule (cut_token ?_ (cut_blank front)) back
  rw [match?_name (head_mem_heads member) (head_mem_heads member)]
  simp

mutual

theorem Call.cut {row : List Symbol} {later : Derivation row} {rest out : List Char}
    (ends : Ends rest = true) (cut : Cut rest later.tokens out) :
    ∀ c : Call, Cut (c.write rest) (c.derive later).tokens out
  | .vectorFunction name operand =>
    Shape.vectorFunction.cut (by decide) name (operand.cut .nil) cut
  | .pairFunction name first second =>
    Shape.pairFunction.cut (by decide) name (first.cut (cut_blank (second.cut .nil))) cut
  | .pointOnLine name operand t =>
    Shape.pointOnLine.cut (by decide) name
      (operand.cut (cut_blank (cut_numeral t.toNumeral ends .nil))) cut
  | .planeFunction name operand =>
    Shape.planeFunction.cut (by decide) name (operand.cut .nil) cut
  | .pointOnPlane name operand s t =>
    Shape.pointOnPlane.cut (by decide) name (operand.cut (cut_blank (cut_numeral s.toNumeral rfl
      (cut_blank (cut_numeral t.toNumeral ends .nil))))) cut
  | .lineThroughPoints name first second =>
    Shape.lineThroughPoints.cut (by decide) name (first.cut (cut_blank (second.cut .nil))) cut
  | .planeThroughThree name first second third =>
    Shape.planeThroughThree.cut (by decide) name
      (first.cut (cut_blank (second.cut (cut_blank (third.cut .nil))))) cut
  | .planeThroughTwo name first second =>
    Shape.planeThroughTwo.cut (by decide) name (first.cut (cut_blank (second.cut .nil))) cut
  | .generic name first second =>
    Shape.generic.cut (by decide) name (first.cut (cut_blank (second.cut .nil))) cut

theorem Operand.cut {row : List Symbol} {later : Derivation row} {rest out : List Char}
    {slot : Slot} (cut : Cut rest later.tokens out) :
    ∀ o : Operand slot, Cut (o.write rest) (o.derive later).tokens out
  | .literal l fits => by
    rw [Operand.derive, slot.tokens_ofKind]
    exact l.cut cut
  | .nested c => by
    rw [Operand.derive, slot.tokens_ofNested]
    exact cut_rule (cut_token (t := .openNested) (w := ['(']) rfl
      (c.cut rfl (cut_token (t := .closeNested) (w := [')']) rfl .nil))) cut

end

/-- A text that goes on with `rest` behind something solid. -/
def Precedes (rest text : List Char) : Prop :=
  ∃ last, Text.isBlank last = false ∧ last :: rest <:+ text

theorem Precedes.append {more : List Char} (front : List Char) (ended : Precedes rest more) :
    Precedes rest (front ++ more) := by
  obtain ⟨last, solid, behind⟩ := ended
  exact ⟨last, solid, behind.trans (List.suffix_append front more)⟩

theorem Precedes.cons {more : List Char} (c : Char) (ended : Precedes rest more) :
    Precedes rest (c :: more) :=
  ended.append [c]

/-- What is written in front of a text is in front of its end. -/
theorem Precedes.trans {more : List Char} (ended : Precedes rest more)
    (written : Precedes more text) : Precedes rest text := by
  obtain ⟨last, solid, behind⟩ := ended
  obtain ⟨_, _, whole⟩ := written
  exact ⟨last, solid, behind.trans ((List.suffix_cons _ more).trans whole)⟩

theorem not_isBlank {c : Char} {low high : Nat} (lower : low ≤ c.toNat) (upper : c.toNat ≤ high)
    (above : 33 ≤ low) (below : high < 133) : Text.isBlank c = false := by
  simp only [Text.isBlank, Text.isWhite, Bool.or_eq_false_iff, Bool.and_eq_false_iff,
    decide_eq_false_iff_not, beq_eq_false_iff_ne]
  omega

theorem not_isBlank_of_isDigit {c : Char} (digit : Number.isDigit c = true) :
    Text.isBlank c = false := by
  simp only [Number.isDigit, Bool.and_eq_true, decide_eq_true_eq] at digit
  exact not_isBlank digit.1 digit.2 (by decide) (by decide)

theorem not_isBlank_of_isLetter {c : Char} (letter : isLetter c = true) :
    Text.isBlank c = false := by
  simp only [isLetter, Bool.and_eq_true, decide_eq_true_eq] at letter
  exact not_isBlank letter.1 letter.2 (by decide) (by decide)

theorem precedes_numeral (w : Numeral) (rest : List Char) : Precedes rest (w.text ++ rest) := by
  obtain ⟨front, c, text, digit⟩ := w.exists_append
  rw [text, List.append_assoc]
  exact .append front ⟨c, not_isBlank_of_isDigit digit, List.suffix_refl _⟩

theorem precedes_mark {c : Char} (solid : Text.isBlank c = false) (rest : List Char) :
    Precedes rest (c :: rest) :=
  ⟨c, solid, List.suffix_refl _⟩

theorem Triple.precedes (v : Triple) (rest : List Char) : Precedes rest (v.write rest) := by
  have closed := precedes_mark (c := ')') (by decide) rest
  exact ((((((closed.append _).cons _).cons _).append _).cons _).cons _).append _ |>.cons _

theorem Triple.precedes_linked (v : Triple) (parameter : Char) (rest : List Char) :
    Precedes rest (v.writeLinked parameter rest) :=
  (v.precedes rest).append [' ', '+', ' ', parameter, ' ', '*', ' ']

theorem Literal.precedes (l : Literal) (rest : List Char) : Precedes rest (l.write rest) := by
  cases l with
  | vector v => exact v.precedes rest
  | line base direction => exact (direction.precedes_linked 't' rest).trans (base.precedes _)
  | span base first second =>
    exact ((second.precedes_linked 't' rest).trans (first.precedes_linked 's' _)).trans
      (base.precedes _)
  | plane a b c d =>
    have zero := precedes_mark (c := '0') (by decide) rest
    exact (((((((zero.cons _).append _).cons _).append _).cons _).append _).cons _).append _

mutual

theorem Call.precedes (rest : List Char) : ∀ c : Call, Precedes rest (c.write rest)
  | .vectorFunction _ operand => ((operand.precedes rest).cons _).append _
  | .pairFunction _ first second =>
    ((((second.precedes rest).cons _).trans (first.precedes _)).cons _).append _
  | .pointOnLine _ operand t =>
    ((((precedes_numeral t.toNumeral rest).cons _).trans (operand.precedes _)).cons _).append _
  | .planeFunction _ operand => ((operand.precedes rest).cons _).append _
  | .pointOnPlane _ operand _ t =>
    ((((((precedes_numeral t.toNumeral rest).cons _).append _).cons _).trans
      (operand.precedes _)).cons _).append _
  | .lineThroughPoints _ first second =>
    ((((second.precedes rest).cons _).trans (first.precedes _)).cons _).append _
  | .planeThroughThree _ first second third =>
    ((((((third.precedes rest).cons _).trans (second.precedes _)).cons _).trans
      (first.precedes _)).cons _).append _
  | .planeThroughTwo _ first second =>
    ((((second.precedes rest).cons _).trans (first.precedes _)).cons _).append _
  | .generic _ first second =>
    ((((second.precedes rest).cons _).trans (first.precedes _)).cons _).append _

theorem Operand.precedes {slot : Slot} (rest : List Char) :
    ∀ o : Operand slot, Precedes rest (o.write rest)
  | .literal l _ => l.precedes rest
  | .nested c => ((precedes_mark (by decide) rest).trans (c.precedes _)).cons _

end

theorem Call.exists_cons (c : Call) (rest : List Char) :
    ∃ letter more, c.write rest = letter :: more ∧ isLetter letter = true := by
  have named : ∀ {t : Terminal} (_ : t ∈ heads) (name : Name t) (more : List Char),
      ∃ letter others, name.text.toList ++ more = letter :: others ∧ isLetter letter = true := by
    intro t head name more
    obtain ⟨letter, others, text, isLetter⟩ := name.exists_cons head
    exact ⟨letter, others ++ more, by rw [text]; rfl, isLetter⟩
  cases c <;> exact named (by decide) _ _

theorem Literal.exists_cons (l : Literal) (rest : List Char) :
    ∃ c more, l.write rest = c :: more ∧ (c = '(' ∨ Number.isDigit c = true ∨ c = '-') := by
  cases l with
  | plane a b c d =>
    obtain ⟨front, more, shape, begins⟩ := a.exists_cons
    exact ⟨front, _, (congrArg (· ++ _) shape).trans (List.cons_append ..), .inr begins⟩
  | vector v => exact ⟨'(', _, rfl, .inl rfl⟩
  | line base direction => exact ⟨'(', _, rfl, .inl rfl⟩
  | span base first second => exact ⟨'(', _, rfl, .inl rfl⟩

theorem not_isLetter_of_front {c : Char} (front : c = '(' ∨ Number.isDigit c = true ∨ c = '-') :
    isLetter c = false := by
  rcases front with rfl | digit | rfl
  · rfl
  · exact not_isLetter_of_isDigit digit
  · rfl

/-- The text of an expression has no blanks at its ends. -/
theorem Expression.trim_text (e : Expression) : Text.trim e.text = e.text := by
  have back : Precedes [] e.text := by
    cases e with
    | literal l => exact l.precedes []
    | call c => exact c.precedes []
  have front : ∃ c more, e.text = c :: more ∧ Text.isBlank c = false := by
    cases e with
    | literal l =>
      obtain ⟨c, more, shape, begins⟩ := l.exists_cons []
      refine ⟨c, more, shape, ?_⟩
      rcases begins with rfl | digit | rfl
      · decide
      · exact not_isBlank_of_isDigit digit
      · decide
    | call c =>
      obtain ⟨letter, more, shape, isLetter⟩ := c.exists_cons []
      exact ⟨letter, more, shape, not_isBlank_of_isLetter isLetter⟩
  obtain ⟨c, more, shape, solid⟩ := front
  obtain ⟨last, ended, others, whole⟩ := back
  apply Text.trimBy_eq_self
  · rw [shape]
    rintro _ ⟨⟩
    exact solid
  · rw [← whole]
    simpa using ended

end SolidGeometry.Grammar.Canonical
