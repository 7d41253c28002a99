import SolidGeometry.Operation.Intersection

namespace SolidGeometry

def Vector.projection (u v : Vector) : Computation Vector := do
  let factor ← (← u.dot v).divide (← v.dot v)
  v.scale factor

namespace Plane

def foot (p : Plane) (point : Vector) : Computation Vector := do
  let n := p.normal
  let factor ← (← (← n.dot point).add p.offset).divide (← n.dot n)
  point.sub (← n.scale factor)

/-- The projection of a line on the plane, a point if the line is perpendicular to the plane. -/
def projectionOfLine (p : Plane) (l : Line) : Computation Element := do
  let n := p.normal
  let r := l.direction
  let factor ← (← r.dot n).divide (← n.dot n)
  let direction ← r.sub (← n.scale factor)
  let anchor ← match ← p.intersectionWithLine l with
    | some (.vector hit) => pure hit
    | _ => p.foot l.base
  return if direction.isZero then .vector anchor else .line ⟨anchor, direction⟩

end Plane

/-- The projection of one element on another in the order of their kinds, if there is one. -/
def Element.projection? : Element → Element → Option (Computation Element)
  | .vector u, .vector v => some (do return .vector (← u.projection v))
  | .line l, .plane p => some (p.projectionOfLine l)
  | .plane p, .vector q => some (do return .vector (← p.foot q))
  | _, _ => none

end SolidGeometry
