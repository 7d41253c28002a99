import SolidGeometry.Operation.Distance

namespace SolidGeometry

namespace Line

def intersection (l m : Line) : Computation (Option Element) := do
  let gap ← l.base.between m.base
  let n ← l.direction.cross m.direction
  if n.isZero then
    return if (← l.distance m).isZero then some (.line l) else none
  else if !(← gap.dot n).isZero then return none
  else
    let above ← (← gap.cross m.direction).dot n
    let under ← n.dot n
    return some (.vector (← l.point (← above.divide under)))

end Line

/-- The first axis on which a vector has a component. -/
def Vector.pivot (v : Vector) : Checked Axis :=
  match Axis.all.find? fun i => !(v.at i).isZero with
  | some axis => .ok axis
  | none => .error (.refused .exhausted)

namespace Plane

/-- The line on two planes whose normals have the cross product `r`, on a pivot axis where `r` has a
component: its base lies on the plane of the other two axes. -/
def meet (p q : Plane) (r : Vector) (pivot : Axis) : Computation Line := do
  let j := pivot.next
  let k := j.next
  let det := r.at pivot
  let first ← (← (← (p.normal.at k).mul q.offset).sub (← (q.normal.at k).mul p.offset)).divide det
  let second ← (← (← (q.normal.at j).mul p.offset).sub (← (p.normal.at j).mul q.offset)).divide det
  let direction ← r.divide det
  return ⟨Vector.ofAxes fun i => if i = j then first else if i = k then second else 0, direction⟩

def intersection (p q : Plane) : Computation (Option Element) := do
  let r ← p.normal.cross q.normal
  if r.isZero then
    return if (← p.distance q).isZero then some (.plane p) else none
  else return some (.line (← p.meet q r (← r.pivot)))

def intersectionWithLine (p : Plane) (l : Line) : Computation (Option Element) := do
  let slope ← p.normal.dot l.direction
  let height := (← (← p.normal.dot l.base).add p.offset).neg
  if slope.isZero then
    return if height.isZero then some (.line l) else none
  else return some (.vector (← l.point (← height.divide slope)))

end Plane

/-- The intersection of two elements in the order of their kinds, if they have one. The inner
`none` is the empty intersection. -/
def Element.intersection? : Element → Element → Option (Computation (Option Element))
  | .line l, .line m => some (l.intersection m)
  | .plane p, .plane q => some (p.intersection q)
  | .line l, .plane p => some (p.intersectionWithLine l)
  | _, _ => none

end SolidGeometry
