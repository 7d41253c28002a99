import SolidGeometry.Number.Layout
import SolidGeometry.Value

namespace SolidGeometry

/-- The greatest number of decimal places that can be chosen. -/
def placesLimit : Nat := 15

/-- How numbers are shown as results. -/
structure NumberStyle where
  places : Nat
  grouping : Bool

/-- A term of an equation behind others: with its sign. -/
def signedTerm (text : String) : String :=
  if text.startsWith "-" then text else "+" ++ text

variable (style : NumberStyle)

def Scalar.render (n : Scalar) : Checked String := n.display style.places style.grouping

def Vector.render (v : Vector) : Checked String := do
  let x ← v.x.render style
  let y ← v.y.render style
  let z ← v.z.render style
  return "(" ++ x ++ ", " ++ y ++ ", " ++ z ++ ")"

def Line.render (l : Line) : Checked String := do
  let base ← l.base.render style
  let direction ← l.direction.render style
  return base ++ " + t * " ++ direction

def Span.render (s : Span) : Checked String := do
  let base ← s.base.render style
  let first ← s.first.render style
  let second ← s.second.render style
  return base ++ " + s * " ++ first ++ " + t * " ++ second

def Plane.render (p : Plane) : Checked String := do
  let a ← p.normal.x.render style
  let b ← p.normal.y.render style
  let c ← p.normal.z.render style
  let d ← p.offset.render style
  return a ++ "x" ++ signedTerm b ++ "y" ++ signedTerm c ++ "z" ++ signedTerm d ++ "=0"

def Element.render : Element → Checked String
  | .vector v => v.render style
  | .line l => l.render style
  | .plane p => p.render style
  | .span s => s.render style

mutual

def Value.render : Value → Checked String
  | .none => .ok "none"
  | .flag b => .ok (if b then "true" else "false")
  | .number n => n.render style
  | .element e => e.render style
  | .tuple items => do return "[" ++ ", ".intercalate (← Value.renderAll items) ++ "]"
  | .text s => .ok s

def Value.renderAll : List Value → Checked (List String)
  | [] => .ok []
  | v :: vs => do
    let text ← v.render
    return text :: (← Value.renderAll vs)

end

end SolidGeometry
