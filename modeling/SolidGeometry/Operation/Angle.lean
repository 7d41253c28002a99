import SolidGeometry.Element.Vector

/-! Angles in degrees. Right angles, equal and opposite directions are recognised exactly before
anything is rounded; other angles come from the arc cosine. A vector without length has no angle. -/
namespace SolidGeometry
open Number

def degrees (x : Float) : Float := x * (180.0 / 3.14159265358979323846)

/-- The value moved into the range of the cosine. -/
def clampCosine (c : Float) : Float :=
  let upper := if c < 1.0 then c else 1.0
  if -1.0 < upper then upper else -1.0

/-- The arc cosine in radians. A number outside the range of the cosine has none. -/
def arcCosine (c : Float) : Checked Float :=
  if c < -1.0 ∨ 1.0 < c then .error (.refused .domain) else .ok c.acos

namespace Vector

/-- The angle of two vectors, no number if one of them has no length. -/
def angle (u v : Vector) : Checked Float := do
  let d ← u.dot v
  let squares ← (← u.dot u).mul (← v.dot v)
  if squares.isZero then return notANumber
  else if d.isZero then return 90.0
  else if (← d.mul d).eqv squares then return (if Scalar.less 0 d then 0.0 else 180.0)
  else
    let cosine ← d.floatQuotient (.float (← squares.sqrt))
    if isNaN cosine then return notANumber
    else return degrees (← arcCosine (clampCosine cosine))

/-- The angle of two directions, zero if one of them is none. -/
def angleOrZero (u v : Vector) : Checked Float := do
  let angle ← u.angle v
  return if isNaN angle then 0.0 else angle

/-- The angle of a direction with the plane that has the given normal. -/
def angleToPlane (normal v : Vector) : Checked Float := do
  let angle ← normal.angle v
  return if 90.0 - angle ≥ 0.0 then 90.0 - angle else angle - 90.0

/-- The angle of two planes by their normals, at most a right angle. -/
def angleOfNormals (m n : Vector) : Checked Float := do
  let angle ← m.angle n
  return if 180.0 - angle < angle then 180.0 - angle else angle

end Vector

/-- The angle of two elements in the order of their kinds, if they have one. -/
def Element.angle? : Element → Element → Option (Checked Float)
  | .vector u, .vector v => some (u.angleOrZero v)
  | .line l, .vector v => some (l.direction.angleOrZero v)
  | .line l, .line m => some (l.direction.angleOrZero m.direction)
  | .plane p, .vector v => some (p.normal.angleToPlane v)
  | .plane p, .plane q => some (p.normal.angleOfNormals q.normal)
  | .line l, .plane p => some (p.normal.angleToPlane l.direction)
  | _, _ => none

def isParallelAngle (angle : Float) : Bool := angle == 0.0 || angle == 180.0

def isRightAngle (angle : Float) : Bool := angle == 90.0 || angle == 270.0

end SolidGeometry
