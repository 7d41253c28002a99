import SolidGeometry.Grammar.Reading
import SolidGeometry.Operation.Methods

/-! The value of an expression. A syntax tree is evaluated from its leaves: the parts of a construct
from left to right, then the construct. A nested call may have a value of any kind, so operands are
checked before a function sees them. -/
namespace SolidGeometry
open Grammar

/-- Why a text has no value. -/
inductive EvaluationError where
  | unreadable (cause : SyntaxError)
  /-- A function does not apply to operands of these kinds. -/
  | noMethod (function : String) (kinds : List String)
  | arithmetic (cause : ArithmeticFault)
  /-- A step in the evaluation of a construct refuses the value that it is given. -/
  | refused (construct : Construct) (cause : Refusal)
  /-- The parts of a construct do not fit together; no text is read as such a tree. -/
  | malformed (construct : Construct)
  deriving DecidableEq, Repr

/-- The former name of `EvaluationError.refused`, kept like `Fault.digits`. -/
@[match_pattern, deprecated EvaluationError.refused (since := "2026-11-19")]
abbrev EvaluationError.digits (construct : Construct) (cause : Refusal) : EvaluationError :=
  .refused construct cause

def EvaluationError.message : EvaluationError → String
  | .unreadable cause => cause.message
  | .noMethod function kinds => (Fault.noMethod function kinds).message
  | .arithmetic cause => "Arithmetic error: " ++ cause.message
  | .refused construct cause =>
    "Error trying to process rule \"" ++ construct.label ++ "\":\n\n" ++ cause.message
  | .malformed construct => "Malformed " ++ construct.label

/-- A fault in the evaluation of a construct. -/
def EvaluationError.ofFault (construct : Construct) : Fault → EvaluationError
  | .arithmetic cause => .arithmetic cause
  | .refused cause => .refused construct cause
  | .noMethod function kinds => .noMethod function kinds

def Value.scalar? : Value → Option Scalar
  | .number n => some n
  | _ => Option.none

def Value.element? : Value → Option Element
  | .element e => some e
  | _ => Option.none

def Value.vector? : Value → Option Vector
  | .element (.vector v) => some v
  | _ => Option.none

def Value.line? : Value → Option Line
  | .element (.line l) => some l
  | _ => Option.none

def Value.span? : Value → Option Span
  | .element (.span s) => some s
  | _ => Option.none

def Value.ofVector (v : Vector) : Value := .element (.vector v)

/-- The operands of a function, all of the kind it needs. -/
def operandsAs {α : Type} (function : String) (pick : Value → Option α) (operands : List Value) :
    Checked (List α) :=
  match operands.mapM pick with
  | some found => .ok found
  | none => .error (.noMethod function (operands.map Value.kindLabel))

/-- A plane in either of its notations. -/
inductive AnyPlane where
  | plane (p : Plane)
  | span (s : Span)

def Value.anyPlane? : Value → Option AnyPlane
  | .element (.plane p) => some (.plane p)
  | .element (.span s) => some (.span s)
  | _ => Option.none

namespace AnyPlane

def toPlane : AnyPlane → Checked Plane
  | plane p => .ok p
  | span s => s.toPlane

def toSpan : AnyPlane → Computation Span
  | plane p => p.toSpan
  | span s => pure s

def intercepts (p : AnyPlane) : Computation (Vector × Vector × Vector) := do
  (← p.toPlane).intercepts

end AnyPlane

def vectorFunction? (name : String) (operands : List Vector) : Option (Computation Value) :=
  match name, operands with
  | "length", [v] => some do return .number (.float (← v.length))
  | "normalize", [v] => some do return .ofVector (← v.normalize)
  | "dotp", [u, v] => some do return .number (← u.dot v)
  | "cross", [u, v] => some do return .ofVector (← u.cross v)
  | "area", [u, v] => some do return .number (.float (← u.area v))
  | "between", [u, v] => some do return .ofVector (← u.between v)
  | _, _ => none

def planeFunction? (name : String) (operand : AnyPlane) : Option (Computation Value) :=
  match name with
  | "param" => some do return .element (.span (← operand.toSpan))
  | "three-points" => some do
    let (x, y, z) ← operand.intercepts
    return .tuple [.ofVector x, .ofVector y, .ofVector z]
  | "normal" => some do return .element (.plane (← operand.toPlane))
  | _ => none

/-- The plane through points: two are a normal and a point, three are points of the plane. -/
def planeThrough? : List Vector → Option (Computation Value)
  | [normal, point] => some do return .element (.plane (← Plane.through normal point))
  | [a, b, c] => some do return .element (.span (← Span.through a b c))
  | _ => none

/-- A computation that goes on with checked operands, if there is one for them. -/
def withOperands {α : Type} (operands : Checked (List α))
    (next? : List α → Option (Computation Value)) : Option (Computation Value) :=
  match operands with
  | .ok found => next? found
  | .error fault => some (Noted.fail fault)

/-- The computation of a construct from the values of its parts, if the parts fit it. -/
def Grammar.Construct.computation? (construct : Construct) (parts : List Value) :
    Option (Computation Value) :=
  match construct, parts with
  | .number, [.text token] =>
    (Number.Literal.ofText? token).map fun literal => do return .number (← literal.value)
  | .vector, parts => do
    match ← parts.mapM Value.scalar? with
    | [x, y, z] => some (pure (.ofVector ⟨x, y, z⟩))
    | _ => none
  | .line, parts => do
    match ← parts.mapM Value.vector? with
    | [base, direction] => some (pure (.element (.line ⟨base, direction⟩)))
    | _ => none
  | .span, parts => do
    match ← parts.mapM Value.vector? with
    | [base, first, second] => some (pure (.element (.span ⟨base, first, second⟩)))
    | _ => none
  | .plane, parts => do
    match ← parts.mapM Value.scalar? with
    | [a, b, c, d] => some (pure (.element (.plane ⟨⟨a, b, c⟩, d⟩)))
    | _ => none
  | .vectorFunction, .text name :: operands =>
    withOperands (operandsAs name Value.vector? operands) (vectorFunction? name)
  | .pointOnLine, [operand, .number t] =>
    withOperands (operandsAs "lwith" Value.line? [operand]) fun
      | [l] => some do return .ofVector (← l.point t)
      | _ => none
  | .planeFunction, [.text name, operand] =>
    withOperands (operandsAs name Value.anyPlane? [operand]) fun
      | [p] => planeFunction? name p
      | _ => none
  | .pointOnPlane, [operand, .number s, .number t] =>
    withOperands (operandsAs "pwith" Value.span? [operand]) fun
      | [p] => some do return .ofVector (← p.point s t)
      | _ => none
  | .lineThroughPoints, points =>
    withOperands (operandsAs "line" Value.vector? points) fun
      | [p, q] => some do return .element (.line (← Line.through p q))
      | _ => none
  | .planeThroughPoints, points =>
    withOperands (operandsAs "plane" Value.vector? points) planeThrough?
  | .generic, .text name :: operands =>
    withOperands (operandsAs name Value.element? operands) fun
      | [a, b] => some (operate name a b)
      | _ => none
  | _, _ => none

mutual

def Grammar.Tree.value : Tree → Noted EvaluationError Value
  | .token t => pure (.text (String.ofList t.text))
  | .node construct children => do
    let parts ← Grammar.Tree.values children
    match construct.computation? parts with
    | some computation => computation.mapError (.ofFault construct)
    | none => Noted.fail (.malformed construct)

def Grammar.Tree.values : List Tree → Noted EvaluationError (List Value)
  | [] => pure []
  | t :: ts => do
    let v ← t.value
    return v :: (← Grammar.Tree.values ts)

end

def evaluate (text : String) : Noted EvaluationError Value := do
  match Grammar.read text with
  | .error cause => Noted.fail (.unreadable cause)
  | .ok tree =>
    let source := Text.quoted text
    Noted.log .reader s!"Parsed {source} into {tree.describe}"
    tree.value

end SolidGeometry
