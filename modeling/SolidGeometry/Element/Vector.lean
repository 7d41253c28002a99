import SolidGeometry.Element.Basic
import SolidGeometry.Number.Layout
import SolidGeometry.Noted

namespace SolidGeometry

/-- The quotient, exact for exact operands. -/
def Scalar.divide (a b : Scalar) : Computation Scalar := do
  if b.isZero then
    let above ← a.text
    let under ← b.text
    Noted.warn .division s!"Division by zero ({above} / {under}) gives NaN"
    return .undefined
  else
    match a.rational?, b.rational? with
    | some p, some q => return .ofRat (p / q)
    | _, _ => return .float (← a.floatQuotient b)

namespace Vector

/-- The vector of three computed components, from the first to the last. -/
def ofChecked (x y z : Checked Scalar) : Checked Vector := do
  return ⟨← x, ← y, ← z⟩

def add (u v : Vector) : Checked Vector := ofChecked (u.x.add v.x) (u.y.add v.y) (u.z.add v.z)

def sub (u v : Vector) : Checked Vector := ofChecked (u.x.sub v.x) (u.y.sub v.y) (u.z.sub v.z)

def scale (v : Vector) (factor : Scalar) : Checked Vector :=
  ofChecked (v.x.mul factor) (v.y.mul factor) (v.z.mul factor)

def isZero (v : Vector) : Bool := v.x.isZero && v.y.isZero && v.z.isZero

/-- The vector from the point `p` to the point `q`. -/
def between (p q : Vector) : Checked Vector := q.sub p

def dot (u v : Vector) : Checked Scalar :=
  (u.x : Checked Scalar) * v.x + u.y * v.y + u.z * v.z

def cross (u v : Vector) : Checked Vector :=
  ofChecked ((u.y : Checked Scalar) * v.z - u.z * v.y)
    ((u.z : Checked Scalar) * v.x - u.x * v.z)
    ((u.x : Checked Scalar) * v.y - u.y * v.x)

def length (v : Vector) : Checked Float := do
  (← v.dot v).sqrt

def area (u v : Vector) : Checked Float := do
  (← u.cross v).length

/-- The unit vector of the same direction. A vector without length has none, which leaves a
warning. -/
def normalize (v : Vector) : Computation Vector := do
  let n ← v.length
  if n == 0 then
    Noted.warn .division "Normalizing a zero-length vector gives NaN components"
    return ⟨.undefined, .undefined, .undefined⟩
  else
    let x ← v.x.floatQuotient (.float n)
    let y ← v.y.floatQuotient (.float n)
    let z ← v.z.floatQuotient (.float n)
    return ⟨.float x, .float y, .float z⟩

/-- Each component divided by the same number, from the first to the last. -/
def divide (v : Vector) (d : Scalar) : Computation Vector := do
  let x ← v.x.divide d
  let y ← v.y.divide d
  let z ← v.z.divide d
  return ⟨x, y, z⟩

def leastAxis (v : Vector) : Axis :=
  [Axis.y, Axis.z].foldl (fun best i => if (v.at i).abs.less (v.at best).abs then i else best) .x

def greatestAxis (v : Vector) : Axis :=
  [Axis.y, Axis.z].foldl (fun best i => if (v.at best).abs.less (v.at i).abs then i else best) .x

end Vector

def Line.point (l : Line) (t : Scalar) : Checked Vector := do
  l.base.add (← l.direction.scale t)

def Line.through (p q : Vector) : Checked Line := do
  return ⟨p, ← p.between q⟩

end SolidGeometry
