import SolidGeometry.Element.Vector

namespace SolidGeometry

namespace Span

def point (p : Span) (s t : Scalar) : Checked Vector := do
  (← p.base.add (← p.first.scale s)).add (← p.second.scale t)

/-- The plane through three points. -/
def through (a b c : Vector) : Checked Span := do
  return ⟨a, ← a.between b, ← a.between c⟩

def toPlane (p : Span) : Checked Plane := do
  let normal ← p.first.cross p.second
  return ⟨normal, (← p.base.dot normal).neg⟩

end Span

namespace Plane

/-- The plane with a given normal through a point. -/
def through (normal point : Vector) : Checked Plane := do
  return ⟨normal, (← point.dot normal).neg⟩

/-- Where the plane meets the three axes. An axis that it does not meet gives no number. -/
def intercepts (p : Plane) : Computation (Vector × Vector × Vector) := do
  let x ← p.offset.neg.divide p.normal.x
  let y ← p.offset.neg.divide p.normal.y
  let z ← p.offset.neg.divide p.normal.z
  return (⟨x, 0, 0⟩, ⟨0, y, 0⟩, ⟨0, 0, z⟩)

/-- The same plane by a point and two directions: by its intercepts if it has three that differ,
else by the foot of the origin and two directions perpendicular to the normal. -/
def toSpan (p : Plane) : Computation Span := do
  let n := p.normal
  if !p.offset.isZero && n.toList.all (!·.isZero) then
    let (x, y, z) ← p.intercepts
    return ⟨x, ← x.between y, ← x.between z⟩
  else
    let factor ← p.offset.neg.divide (← n.dot n)
    let base ← n.scale factor
    let helper := Vector.ofAxes fun i => if i = n.leastAxis then 1 else 0
    let first ← n.cross helper
    return ⟨base, first, ← n.cross first⟩

end Plane

/-- Planes are brought to their equation, all other elements are left as they are. -/
def Element.toEquation : Element → Checked Element
  | .span s => do return .plane (← s.toPlane)
  | e => .ok e

end SolidGeometry
