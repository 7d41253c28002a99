import SolidGeometry.Element.Basic

namespace SolidGeometry

inductive Value where
  | none
  | flag (b : Bool)
  | number (n : Scalar)
  | element (e : Element)
  | tuple (items : List Value)
  | text (s : String)

def Value.kindLabel : Value → String
  | .none => "none"
  | .flag _ => "bool"
  | .number (.int _) => "int"
  | .number (.ratio _) => "Fraction"
  | .number (.float _) => "float"
  | .number .undefined => "float"
  | .element e => e.kind.label
  | .tuple _ => "tuple"
  | .text _ => "str"

/-- A truth value counts as one or zero among numbers. -/
def Value.number? : Value → Option Scalar
  | .flag b => some (if b then 1 else 0)
  | .number n => some n
  | _ => Option.none

mutual

/-- Whether two values in the same place of two data agree. -/
def Value.same : Value → Value → Bool
  | .none, .none => true
  | .element d, .element e => d.same e
  | .tuple xs, .tuple ys => Value.sameAll xs ys
  | .text s, .text t => s == t
  | .flag a, .flag b => a == b
  | .flag a, .number n => (if a then (1 : Scalar) else 0).same n
  | .number n, .flag b => n.same (if b then 1 else 0)
  | .number m, .number n => m.same n
  | _, _ => false

def Value.sameAll : List Value → List Value → Bool
  | [], [] => true
  | x :: xs, y :: ys => x.same y && Value.sameAll xs ys
  | _, _ => false

end

/-- Equality of values: of numbers by value, of all other values by their parts. -/
def Value.eqv (a b : Value) : Bool :=
  match a.number?, b.number? with
  | some m, some n => m.eqv n
  | _, _ => a.same b

end SolidGeometry
