import SolidGeometry.Operation.Projection
import SolidGeometry.Value

/-! Operations on two elements of any kinds. An operation has one method for each pair of kinds that
it supports, in the order line, plane, vector. Before a method runs, each operand without a
direction is reported once; what a method calls in turn reports nothing again. -/
namespace SolidGeometry

inductive Operation where
  | angle
  | parallel
  | perpendicular
  | distance
  | on
  | intersection
  | projection
  | skewed
  deriving DecidableEq, Repr

namespace Operation

def all : List Operation :=
  [angle, parallel, perpendicular, distance, on, intersection, projection, skewed]

def label : Operation → String
  | angle => "angle"
  | parallel => "parallel?"
  | perpendicular => "perpendicular?"
  | distance => "distance"
  | on => "on?"
  | intersection => "intersection"
  | projection => "projection"
  | skewed => "skewed?"

def ofLabel? (name : String) : Option Operation := all.find? (·.label == name)

theorem ofLabel?_label (o : Operation) : ofLabel? o.label = some o := by
  cases o <;> decide

end Operation

/-- Whether two lines are neither parallel nor touching. -/
def Line.isSkewedTo (l m : Line) : Computation Bool := do
  if isParallelAngle (← l.direction.angleOrZero m.direction) then return false
  else return !(← l.distance m).isZero

/-- The method of an operation for two elements in the order of their kinds. -/
def Operation.method? (o : Operation) (a b : Element) : Option (Computation Value) :=
  match o with
  | angle => (a.angle? b).map fun (m : Checked Float) => do return .number (.float (← m))
  | parallel => (a.angle? b).map fun (m : Checked Float) => do return .flag (isParallelAngle (← m))
  | perpendicular =>
    (a.angle? b).map fun (m : Checked Float) => do return .flag (isRightAngle (← m))
  | distance => (a.distance? b).map fun m => do return .number (← m)
  | on => (a.distance? b).map fun m => do return .flag (← m).isZero
  | intersection => (a.intersection? b).map fun m => do return (← m).elim .none .element
  | projection => (a.projection? b).map fun m => do return .element (← m)
  | skewed =>
    match a, b with
    | .line l, .line m => some (do return .flag (← l.isSkewedTo m))
    | _, _ => none

/-- The warning about an operand without a direction. -/
def Element.degeneracy? : Element → Option Warning
  | .line l =>
    if l.direction.isZero then some ⟨.operand, "Line has a zero direction vector"⟩ else none
  | .plane p =>
    if p.normal.isZero then some ⟨.operand, "Plane has a zero normal vector"⟩ else none
  | _ => none

/-- Reports an operand without a direction. -/
def Element.check (e : Element) : Computation Unit :=
  match e.degeneracy? with
  | some w => Noted.emit (.warning w)
  | none => pure ()

def noMethod (name : String) (a b : Element) : Fault :=
  .noMethod name [a.kind.label, b.kind.label]

def method? (name : String) (a b : Element) : Option (Computation Value) := do
  (← Operation.ofLabel? name).method? a b

/-- Runs the named operation on two elements in the order of their kinds. -/
def runMethod (name : String) (a b : Element) : Computation Value :=
  match method? name a b with
  | none => Noted.fail (noMethod name a b)
  | some method => do
    Noted.log .methods s!"Dispatching {name} on ({a.kind.label}, {b.kind.label})"
    a.check
    b.check
    method

/-- An operation run on two elements as it is called by other operations: without reports, and
named for the operation that it rests on. -/
def Operation.runBare (o : Operation) (a b : Element) : Computation Value :=
  match o.method? a b with
  | some method => method
  | none =>
    let base := match o with
      | parallel | perpendicular => angle
      | on => distance
      | _ => o
    Noted.fail (noMethod base.label a b)

/-- Two elements in the order of their kinds, and whether they were exchanged. -/
structure Operands where
  first : Element
  second : Element
  swapped : Bool

/-- Brings two elements into the order of their kinds. -/
def Operands.inOrder (a b : Element) : Operands :=
  if b.kind.rank < a.kind.rank then ⟨b, a, true⟩ else ⟨a, b, false⟩

/-- Brings two elements to their normal form, then into the order of their kinds. -/
def Operands.ofElements (a b : Element) : Checked Operands := do
  let a ← a.toEquation
  let b ← b.toEquation
  return Operands.inOrder a b

/-- Runs the named operation on two elements in any order. -/
def operate (name : String) (a b : Element) : Computation Value := do
  let operands ← Operands.ofElements a b
  let a := operands.first
  let b := operands.second
  if operands.swapped then
    Noted.log .operands s!"Reordered operands of {name} to ({a.kind.label}, {b.kind.label})"
  runMethod name a b

end SolidGeometry
