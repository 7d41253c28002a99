/-! The grammar of expressions. Brackets around a vector, the link between the parts of a line and
the marks of a plane's equation are optional, which makes many texts ambiguous; the order of the
rules is part of the grammar, for it decides between readings. -/
namespace SolidGeometry.Grammar

inductive Terminal where
  | vectorFunction
  | pairFunction
  | planeFunction
  | generic
  | number
  | word
  | opening
  | closing
  | lwith
  | pwith
  | line
  | plane
  | openNested
  | closeNested
  | plus
  | star
  | x
  | y
  | z
  | equals
  | zero
  deriving DecidableEq, Repr

inductive Nonterminal where
  | start
  | call
  | nested
  | vectorOperand
  | lineOperand
  | planeOperand
  | spanOperand
  | operand
  | literal
  | vector
  | line
  | span
  | link
  | plane
  | number
  deriving DecidableEq, Repr

inductive Symbol where
  | terminal (t : Terminal)
  | nonterminal (n : Nonterminal)
  deriving DecidableEq, Repr

/-- The constructs that have a node of their own in a syntax tree. -/
inductive Construct where
  | vectorFunction
  | pointOnLine
  | planeFunction
  | pointOnPlane
  | lineThroughPoints
  | planeThroughPoints
  | generic
  | vector
  | line
  | span
  | plane
  | number
  deriving DecidableEq, Repr

/-- A rule of the grammar. The order counts the rules of one nonterminal; a rule without a construct
leaves its parts to the construct around it. -/
structure Rule where
  order : Nat
  origin : Nonterminal
  symbols : List Symbol
  construct? : Option Construct
  deriving DecidableEq, Repr

instance : Coe Terminal Symbol := ⟨.terminal⟩

instance : Coe Nonterminal Symbol := ⟨.nonterminal⟩

/-- One alternative from each part, joined in all ways. The choice in the first part varies
slowest. -/
def sequences : List (List (List Symbol)) → List (List Symbol)
  | [] => [[]]
  | part :: parts => part.flatMap fun choice => (sequences parts).map (choice ++ ·)

/-- A part that is always there. -/
def always (symbols : List Symbol) : List (List Symbol) := [symbols]

/-- A part that may be absent; it is first taken to be there. -/
def optional (symbols : List Symbol) : List (List Symbol) := [symbols, []]

/-- The mark of a coordinate in a plane's equation: `*x`, `x` or nothing. -/
def coordinate (axis : Terminal) : List (List Symbol) :=
  [[Terminal.star, axis], [axis], []]

/-- Alternatives that all build one construct. -/
def building (construct : Construct) (alternatives : List (List Symbol)) :
    List (List Symbol × Option Construct) :=
  alternatives.map (·, some construct)

/-- Alternatives that build no construct of their own. -/
def inlined (alternatives : List (List Symbol)) : List (List Symbol × Option Construct) :=
  alternatives.map (·, none)

namespace Nonterminal

def alternatives : Nonterminal → List (List Symbol × Option Construct)
  | start => inlined [[call], [literal]]
  | call =>
    building .vectorFunction [[Terminal.vectorFunction, vectorOperand],
      [Terminal.pairFunction, vectorOperand, vectorOperand]] ++
    building .pointOnLine [[Terminal.lwith, lineOperand, number]] ++
    building .planeFunction [[Terminal.planeFunction, planeOperand]] ++
    building .pointOnPlane [[Terminal.pwith, spanOperand, number, number]] ++
    building .lineThroughPoints [[Terminal.line, vectorOperand, vectorOperand]] ++
    building .planeThroughPoints (sequences [
      always [Terminal.plane, vectorOperand, vectorOperand], optional [vectorOperand]]) ++
    building .generic [[Terminal.generic, operand, operand]]
  | nested => inlined [[Terminal.openNested, call, Terminal.closeNested]]
  | vectorOperand => inlined [[vector], [nested]]
  | lineOperand => inlined [[line], [nested]]
  | planeOperand => inlined [[plane], [span], [nested]]
  | spanOperand => inlined [[span], [nested]]
  | operand => inlined [[literal], [nested]]
  | literal => inlined [[vector], [line], [plane], [span]]
  | vector => building .vector (sequences [
      optional [Terminal.opening], always [number, number, number], optional [Terminal.closing]])
  | line => building .line [[vector, link, vector]]
  | span => building .span [[vector, link, vector, link, vector]]
  | link => inlined (sequences [
      optional [Terminal.plus], optional [Terminal.word], optional [Terminal.star]])
  | plane => building .plane (sequences [
      always [number], coordinate .x, always [number], coordinate .y, always [number],
      coordinate .z, always [number], optional [Terminal.equals, Terminal.zero]])
  | number => building .number [[Terminal.number]]

def rules (n : Nonterminal) : List Rule :=
  n.alternatives.zipIdx.map fun alternative =>
    ⟨alternative.2, n, alternative.1.1, alternative.1.2⟩

def all : List Nonterminal :=
  [start, call, nested, vectorOperand, lineOperand, planeOperand, spanOperand, operand, literal,
    vector, line, span, link, plane, number]

end Nonterminal

/-- The nonterminal at the front of a rule. -/
def Rule.head? (r : Rule) : Option Nonterminal :=
  match r.symbols with
  | .nonterminal n :: _ => some n
  | _ => none

/-- The rules of the nonterminals in a queue and of all that stand at the front of these rules.
A nonterminal joins the queue once, behind those already in it; the first number bounds how many are
taken from the queue. -/
def predictFrom : Nat → List Nonterminal → List Nonterminal → List Rule
  | 0, _, _ => []
  | _, [], _ => []
  | bound + 1, n :: queue, seen =>
    let fresh := (n.rules.filterMap Rule.head?).foldl
      (fun fresh m => if m ∈ seen ∨ m ∈ fresh then fresh else fresh ++ [m]) []
    n.rules ++ predictFrom bound (queue ++ fresh) (seen ++ fresh)

def predictionTable : List (Nonterminal × List Rule) :=
  Nonterminal.all.map fun n => (n, predictFrom Nonterminal.all.length [n] [n])

/-- The rules that may begin where a nonterminal is expected. -/
def Nonterminal.predictions (n : Nonterminal) : List Rule :=
  (predictionTable.lookup n).getD []

end SolidGeometry.Grammar
