import SolidGeometry.Number.Scalar

namespace SolidGeometry

/-- A free vector or the position of a point. -/
structure Vector where
  x : Scalar
  y : Scalar
  z : Scalar

/-- The points `base + t * direction`. -/
structure Line where
  base : Vector
  direction : Vector

/-- The points `p` with `normal · p + offset = 0`. -/
structure Plane where
  normal : Vector
  offset : Scalar

/-- The points `base + s * first + t * second`. -/
structure Span where
  base : Vector
  first : Vector
  second : Vector

/-- The kinds of elements, in the order in which operands are brought. -/
inductive Kind where
  | line
  | plane
  | span
  | vector
  deriving DecidableEq, Repr

def Kind.label : Kind → String
  | .line => "line"
  | .plane => "plane"
  | .span => "pplane"
  | .vector => "vector"

def Kind.rank : Kind → Nat
  | .line => 0
  | .plane => 1
  | .span => 2
  | .vector => 3

inductive Element where
  | vector (v : Vector)
  | line (l : Line)
  | plane (p : Plane)
  | span (s : Span)

def Element.kind : Element → Kind
  | .vector _ => .vector
  | .line _ => .line
  | .plane _ => .plane
  | .span _ => .span

inductive Axis where
  | x
  | y
  | z
  deriving DecidableEq, Repr

def Axis.all : List Axis := [.x, .y, .z]

/-- The axis that follows in the cycle x, y, z. -/
def Axis.next : Axis → Axis
  | .x => .y
  | .y => .z
  | .z => .x

def Vector.at (v : Vector) : Axis → Scalar
  | .x => v.x
  | .y => v.y
  | .z => v.z

/-- The vector with the given component on each axis. -/
def Vector.ofAxes (f : Axis → Scalar) : Vector := ⟨f .x, f .y, f .z⟩

def Vector.toList (v : Vector) : List Scalar := [v.x, v.y, v.z]

/-- The component at an index from `-3` to `2`; negative indices count from the end. -/
def Vector.component? (v : Vector) (index : Int) : Option Scalar :=
  if 0 ≤ index then v.toList[index.toNat]?
  else if -3 ≤ index then v.toList[(index + 3).toNat]?
  else none

def Vector.same (u v : Vector) : Bool := u.x.same v.x && u.y.same v.y && u.z.same v.z

/-- Whether two elements are of one kind and agree in all their numbers. -/
def Element.same : Element → Element → Bool
  | .vector u, .vector v => u.same v
  | .line l, .line m => l.base.same m.base && l.direction.same m.direction
  | .plane p, .plane q => p.normal.same q.normal && p.offset.same q.offset
  | .span s, .span t => s.base.same t.base && s.first.same t.first && s.second.same t.second
  | _, _ => false

end SolidGeometry
