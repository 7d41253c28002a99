import SolidGeometry.Proofs.Grammar.Lexicon

namespace SolidGeometry.Grammar.Canonical

structure Triple where
  x : PlainNumeral
  y : PlainNumeral
  z : PlainNumeral

inductive Kind where
  | vector
  | line
  | span
  | plane
  deriving DecidableEq

inductive Literal where
  | vector (v : Triple)
  | line (base direction : Triple)
  | span (base first second : Triple)
  | plane (a : PlainNumeral) (b c d : SignedNumeral)

def Literal.kind : Literal → Kind
  | .vector _ => .vector
  | .line _ _ => .line
  | .span _ _ _ => .span
  | .plane _ _ _ _ => .plane

/-- A place for an operand of a call. -/
inductive Slot where
  | vector
  | line
  | plane
  | span
  | any
  deriving DecidableEq

/-- The kinds of literals that may fill a place. -/
def Slot.allows : Slot → Kind → Bool
  | .vector, .vector | .line, .line | .span, .span => true
  | .plane, .plane | .plane, .span => true
  | .any, _ => true
  | _, _ => false

mutual

inductive Call where
  | vectorFunction (name : Name .vectorFunction) (operand : Operand .vector)
  | pairFunction (name : Name .pairFunction) (first second : Operand .vector)
  | pointOnLine (name : Name .lwith) (operand : Operand .line) (t : PlainNumeral)
  | planeFunction (name : Name .planeFunction) (operand : Operand .plane)
  | pointOnPlane (name : Name .pwith) (operand : Operand .span) (s t : PlainNumeral)
  | lineThroughPoints (name : Name .line) (first second : Operand .vector)
  | planeThroughThree (name : Name .plane) (first second third : Operand .vector)
  | planeThroughTwo (name : Name .plane) (first second : Operand .vector)
  | generic (name : Name .generic) (first second : Operand .any)

/-- An operand: a literal that its place allows, or a nested call. -/
inductive Operand : Slot → Type where
  | literal {slot : Slot} (l : Literal) (fits : slot.allows l.kind = true) : Operand slot
  | nested {slot : Slot} (c : Call) : Operand slot

end

inductive Expression where
  | literal (l : Literal)
  | call (c : Call)

def Triple.write (v : Triple) (rest : List Char) : List Char :=
  '(' :: (v.x.text ++ ',' :: ' ' :: (v.y.text ++ ',' :: ' ' :: (v.z.text ++ ')' :: rest)))

/-- A vector linked to what stands before it by a parameter. -/
def Triple.writeLinked (v : Triple) (parameter : Char) (rest : List Char) : List Char :=
  ' ' :: '+' :: ' ' :: parameter :: ' ' :: '*' :: ' ' :: v.write rest

def Literal.write (rest : List Char) : Literal → List Char
  | .vector v => v.write rest
  | .line base direction => base.write (direction.writeLinked 't' rest)
  | .span base first second =>
    base.write (first.writeLinked 's' (second.writeLinked 't' rest))
  | .plane a b c d =>
    a.text ++ 'x' :: (b.text ++ 'y' :: (c.text ++ 'z' :: (d.text ++ '=' :: '0' :: rest)))

mutual

def Call.write (rest : List Char) : Call → List Char
  | .vectorFunction name operand => name.text.toList ++ ' ' :: operand.write rest
  | .pairFunction name first second =>
    name.text.toList ++ ' ' :: first.write (' ' :: second.write rest)
  | .pointOnLine name operand t =>
    name.text.toList ++ ' ' :: operand.write (' ' :: (t.text ++ rest))
  | .planeFunction name operand => name.text.toList ++ ' ' :: operand.write rest
  | .pointOnPlane name operand s t =>
    name.text.toList ++ ' ' :: operand.write (' ' :: (s.text ++ ' ' :: (t.text ++ rest)))
  | .lineThroughPoints name first second =>
    name.text.toList ++ ' ' :: first.write (' ' :: second.write rest)
  | .planeThroughThree name first second third =>
    name.text.toList ++ ' ' :: first.write (' ' :: second.write (' ' :: third.write rest))
  | .planeThroughTwo name first second =>
    name.text.toList ++ ' ' :: first.write (' ' :: second.write rest)
  | .generic name first second =>
    name.text.toList ++ ' ' :: first.write (' ' :: second.write rest)

def Operand.write {slot : Slot} (rest : List Char) : Operand slot → List Char
  | .literal l _ => l.write rest
  | .nested c => '(' :: c.write (')' :: rest)

end

def Expression.text : Expression → List Char
  | .literal l => l.write []
  | .call c => c.write []

def numberTree (w : Numeral) : Tree := .node .number [.token ⟨.number, w.text⟩]

def nameTree {t : Terminal} (name : Name t) : Tree := .token ⟨t, name.text.toList⟩

def Triple.tree (v : Triple) : Tree :=
  .node .vector [numberTree v.x.toNumeral, numberTree v.y.toNumeral, numberTree v.z.toNumeral]

def Literal.tree : Literal → Tree
  | .vector v => v.tree
  | .line base direction => .node .line [base.tree, direction.tree]
  | .span base first second => .node .span [base.tree, first.tree, second.tree]
  | .plane a b c d => .node .plane [numberTree a.toNumeral, numberTree b.toNumeral,
      numberTree c.toNumeral, numberTree d.toNumeral]

mutual

def Call.tree : Call → Tree
  | .vectorFunction name operand => .node .vectorFunction [nameTree name, operand.tree]
  | .pairFunction name first second =>
    .node .vectorFunction [nameTree name, first.tree, second.tree]
  | .pointOnLine _ operand t => .node .pointOnLine [operand.tree, numberTree t.toNumeral]
  | .planeFunction name operand => .node .planeFunction [nameTree name, operand.tree]
  | .pointOnPlane _ operand s t =>
    .node .pointOnPlane [operand.tree, numberTree s.toNumeral, numberTree t.toNumeral]
  | .lineThroughPoints _ first second => .node .lineThroughPoints [first.tree, second.tree]
  | .planeThroughThree _ first second third =>
    .node .planeThroughPoints [first.tree, second.tree, third.tree]
  | .planeThroughTwo _ first second => .node .planeThroughPoints [first.tree, second.tree]
  | .generic name first second => .node .generic [nameTree name, first.tree, second.tree]

def Operand.tree {slot : Slot} : Operand slot → Tree
  | .literal l _ => l.tree
  | .nested c => c.tree

end

def Expression.tree : Expression → Tree
  | .literal l => l.tree
  | .call c => c.tree

/-- A rule that only passes on to another nonterminal. -/
def unitRule (order : Nat) (n m : Nonterminal) : Rule := ⟨order, n, [.nonterminal m], none⟩

def numberRule : Rule := ⟨0, .number, [.terminal .number], some .number⟩

def vectorRule : Rule :=
  ⟨0, .vector, [.terminal .opening, .nonterminal .number, .nonterminal .number,
    .nonterminal .number, .terminal .closing], some .vector⟩

def linkRule : Rule :=
  ⟨0, .link, [.terminal .plus, .terminal .word, .terminal .star], none⟩

def lineRule : Rule :=
  ⟨0, .line, [.nonterminal .vector, .nonterminal .link, .nonterminal .vector], some .line⟩

def spanRule : Rule :=
  ⟨0, .span, [.nonterminal .vector, .nonterminal .link, .nonterminal .vector,
    .nonterminal .link, .nonterminal .vector], some .span⟩

theorem lineRule_mem : lineRule ∈ Nonterminal.line.rules := by decide

theorem spanRule_mem : spanRule ∈ Nonterminal.span.rules := by decide

/-- The rule of a plane's equation with each coordinate marked by its bare letter. -/
def planeRule : Rule :=
  ⟨26, .plane, [.nonterminal .number, .terminal .x, .nonterminal .number, .terminal .y,
    .nonterminal .number, .terminal .z, .nonterminal .number, .terminal .equals, .terminal .zero],
    some .plane⟩

def nestedRule : Rule :=
  ⟨0, .nested, [.terminal .openNested, .nonterminal .call, .terminal .closeNested], none⟩

/-- The shape of a call: the kind of token it begins with and what follows the token. -/
structure Shape where
  order : Nat
  head : Terminal
  operands : List Nonterminal
  construct : Construct
  deriving DecidableEq

def Shape.rule (s : Shape) : Rule :=
  ⟨s.order, .call, .terminal s.head :: s.operands.map .nonterminal, some s.construct⟩

namespace Shape

def vectorFunction : Shape := ⟨0, .vectorFunction, [.vectorOperand], .vectorFunction⟩

def pairFunction : Shape := ⟨1, .pairFunction, [.vectorOperand, .vectorOperand], .vectorFunction⟩

def pointOnLine : Shape := ⟨2, .lwith, [.lineOperand, .number], .pointOnLine⟩

def planeFunction : Shape := ⟨3, .planeFunction, [.planeOperand], .planeFunction⟩

def pointOnPlane : Shape := ⟨4, .pwith, [.spanOperand, .number, .number], .pointOnPlane⟩

def lineThroughPoints : Shape := ⟨5, .line, [.vectorOperand, .vectorOperand], .lineThroughPoints⟩

def planeThroughThree : Shape :=
  ⟨6, .plane, [.vectorOperand, .vectorOperand, .vectorOperand], .planeThroughPoints⟩

def planeThroughTwo : Shape := ⟨7, .plane, [.vectorOperand, .vectorOperand], .planeThroughPoints⟩

def generic : Shape := ⟨8, .generic, [.operand, .operand], .generic⟩

end Shape

def shapes : List Shape :=
  [.vectorFunction, .pairFunction, .pointOnLine, .planeFunction, .pointOnPlane, .lineThroughPoints,
    .planeThroughThree, .planeThroughTwo, .generic]

theorem rules_call : Nonterminal.call.rules = shapes.map Shape.rule := by decide

theorem head_mem_heads {s : Shape} (member : s ∈ shapes) : s.head ∈ heads := by
  revert s
  decide

/-- A call of a shape, from the derivation of its operands. -/
def Shape.derive (s : Shape) (member : s ∈ shapes) {row : List Symbol} (name : List Char)
    (parts : Derivation (s.operands.map .nonterminal)) (later : Derivation row) :
    Derivation (.nonterminal .call :: row) :=
  .rule s.rule (rules_call ▸ List.mem_map_of_mem member) (.token s.head name parts) later

variable {row : List Symbol}

/-- A derivation of one nonterminal serves another that passes on to it. -/
def lift {n m : Nonterminal} (order : Nat) (member : unitRule order n m ∈ n.rules) :
    Derivation (.nonterminal m :: row) → Derivation (.nonterminal n :: row)
  | .rule r inner parts later =>
    .rule (unitRule order n m) member (.rule r inner parts .nil) later

def Numeral.derive (w : Numeral) (later : Derivation row) :
    Derivation (.nonterminal .number :: row) :=
  .rule numberRule (by decide) (.token .number w.text .nil) later

def Triple.derive (v : Triple) (later : Derivation row) :
    Derivation (.nonterminal .vector :: row) :=
  .rule vectorRule (by decide)
    (.token .opening ['('] (Numeral.derive v.x.toNumeral (Numeral.derive v.y.toNumeral
      (Numeral.derive v.z.toNumeral (.token .closing [')'] .nil))))) later

def Triple.deriveLinked (v : Triple) (parameter : Char) (later : Derivation row) :
    Derivation (.nonterminal .link :: .nonterminal .vector :: row) :=
  .rule linkRule (by decide)
    (.token .plus ['+'] (.token .word [parameter] (.token .star ['*'] .nil))) (v.derive later)

def Kind.symbol : Kind → Symbol
  | .vector => .nonterminal .vector
  | .line => .nonterminal .line
  | .span => .nonterminal .span
  | .plane => .nonterminal .plane

def Literal.derive (later : Derivation row) : (l : Literal) → Derivation (l.kind.symbol :: row)
  | .vector v => v.derive later
  | .line base direction =>
    .rule lineRule lineRule_mem (base.derive (direction.deriveLinked 't' .nil)) later
  | .span base first second =>
    .rule spanRule spanRule_mem
      (base.derive (first.deriveLinked 's' (second.deriveLinked 't' .nil))) later
  | .plane a b c d =>
    .rule planeRule (by decide +kernel)
      (Numeral.derive a.toNumeral (.token .x ['x'] (Numeral.derive b.toNumeral
        (.token .y ['y'] (Numeral.derive c.toNumeral (.token .z ['z'] (Numeral.derive d.toNumeral
          (.token .equals ['='] (.token .zero ['0'] .nil))))))))) later

def Slot.symbol : Slot → Symbol
  | .vector => .nonterminal .vectorOperand
  | .line => .nonterminal .lineOperand
  | .plane => .nonterminal .planeOperand
  | .span => .nonterminal .spanOperand
  | .any => .nonterminal .operand

def Kind.toLiteral : (kind : Kind) → Derivation (kind.symbol :: row) →
    Derivation (.nonterminal .literal :: row)
  | .vector => lift 0 (by decide)
  | .line => lift 1 (by decide)
  | .plane => lift 2 (by decide)
  | .span => lift 3 (by decide)

/-- A literal in its place. -/
def Slot.ofKind : (slot : Slot) → (kind : Kind) → slot.allows kind = true →
    Derivation (kind.symbol :: row) → Derivation (slot.symbol :: row)
  | .vector, .vector, _ => lift 0 (by decide)
  | .line, .line, _ => lift 0 (by decide)
  | .plane, .plane, _ => lift 0 (by decide)
  | .plane, .span, _ => lift 1 (by decide)
  | .span, .span, _ => lift 0 (by decide)
  | .any, kind, _ => fun d => lift 0 (by decide) (kind.toLiteral d)

/-- A nested call in its place. -/
def Slot.ofNested : (slot : Slot) → Derivation (.nonterminal .nested :: row) →
    Derivation (slot.symbol :: row)
  | .vector => lift 1 (by decide)
  | .line => lift 1 (by decide)
  | .plane => lift 2 (by decide)
  | .span => lift 1 (by decide)
  | .any => lift 1 (by decide)

mutual

def Call.derive {row : List Symbol} (later : Derivation row) :
    Call → Derivation (.nonterminal .call :: row)
  | .vectorFunction name operand =>
    Shape.vectorFunction.derive (by decide) name.text.toList (operand.derive .nil) later
  | .pairFunction name first second =>
    Shape.pairFunction.derive (by decide) name.text.toList (first.derive (second.derive .nil)) later
  | .pointOnLine name operand t =>
    Shape.pointOnLine.derive (by decide) name.text.toList
      (operand.derive (Numeral.derive t.toNumeral .nil)) later
  | .planeFunction name operand =>
    Shape.planeFunction.derive (by decide) name.text.toList (operand.derive .nil) later
  | .pointOnPlane name operand s t =>
    Shape.pointOnPlane.derive (by decide) name.text.toList
      (operand.derive (Numeral.derive s.toNumeral (Numeral.derive t.toNumeral .nil))) later
  | .lineThroughPoints name first second =>
    Shape.lineThroughPoints.derive (by decide) name.text.toList
      (first.derive (second.derive .nil)) later
  | .planeThroughThree name first second third =>
    Shape.planeThroughThree.derive (by decide) name.text.toList
      (first.derive (second.derive (third.derive .nil))) later
  | .planeThroughTwo name first second =>
    Shape.planeThroughTwo.derive (by decide) name.text.toList
      (first.derive (second.derive .nil)) later
  | .generic name first second =>
    Shape.generic.derive (by decide) name.text.toList (first.derive (second.derive .nil)) later

def Operand.derive {row : List Symbol} {slot : Slot} (later : Derivation row) :
    Operand slot → Derivation (slot.symbol :: row)
  | .literal l fits => slot.ofKind l.kind fits (l.derive later)
  | .nested c =>
    slot.ofNested (.rule nestedRule (by decide)
      (.token .openNested ['('] (c.derive (.token .closeNested [')'] .nil))) later)

end

def Expression.derivation : Expression → Derivation [.nonterminal .start]
  | .literal l => lift 1 (by decide) (l.kind.toLiteral (l.derive .nil))
  | .call c => lift 0 (by decide) (c.derive .nil)

end SolidGeometry.Grammar.Canonical
