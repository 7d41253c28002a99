import SolidGeometry.Element.Plane
import SolidGeometry.Operation.Angle

namespace SolidGeometry

def Vector.distance (p q : Vector) : Checked Float := do
  (← p.between q).length

namespace Line

def distanceToPoint (l : Line) (p : Vector) : Computation Scalar := do
  let area ← l.direction.area (← l.base.between p)
  let length ← l.direction.length
  Scalar.divide (.float area) (.float length)

/-- The distance of two lines, of parallel ones by a point of the second. -/
def distance (l m : Line) : Computation Scalar := do
  let n ← l.direction.cross m.direction
  if n.isZero then l.distanceToPoint m.base
  else
    let volume ← n.dot (← l.base.between m.base)
    let length ← n.length
    volume.abs.divide (.float length)

end Line

namespace Plane

def distanceToPoint (p : Plane) (point : Vector) : Computation Scalar := do
  let value ← (← p.normal.dot point).add p.offset
  let length ← p.normal.length
  value.abs.divide (.float length)

/-- The distance of a line from the plane, zero unless they are parallel. -/
def distanceToLine (p : Plane) (l : Line) : Computation Scalar := do
  if isParallelAngle (← p.normal.angleToPlane l.direction) then p.distanceToPoint l.base
  else return .float 0.0

/-- The point of the plane on the axis of the greatest component of its normal. -/
def axisPoint (p : Plane) : Computation Vector := do
  let axis := p.normal.greatestAxis
  let value ← p.offset.neg.divide (p.normal.at axis)
  return Vector.ofAxes fun i => if i = axis then value else 0

/-- The distance of two planes, zero unless they are parallel. -/
def distance (p q : Plane) : Computation Scalar := do
  if isParallelAngle (← p.normal.angleOfNormals q.normal) then q.distanceToPoint (← p.axisPoint)
  else return .float 0.0

end Plane

/-- The distance of two elements in the order of their kinds, if they have one. -/
def Element.distance? : Element → Element → Option (Computation Scalar)
  | .vector p, .vector q => some (do return .float (← p.distance q))
  | .line l, .vector p => some (l.distanceToPoint p)
  | .line l, .line m => some (l.distance m)
  | .plane p, .vector q => some (p.distanceToPoint q)
  | .line l, .plane p => some (p.distanceToLine l)
  | .plane p, .plane q => some (p.distance q)
  | _, _ => none

end SolidGeometry
