import SolidGeometry.Number.Scalar
import SolidGeometry.Settings.Datum
import SolidGeometry.Yaml.Failure

namespace SolidGeometry

/-- A key that is a number or a truth value. -/
def Datum.keyNumber? : Datum → Option Scalar
  | .flag b => some (if b then 1 else 0)
  | .int n => some (.int n)
  | .float x => some (.float x)
  | _ => none

mutual

/-- Whether two data are the same key. Numbers are compared by their values, the mark of no number
is the same as itself. -/
def Datum.sameKey : Datum → Datum → Bool
  | .text s, .text t => s == t
  | .bytes s, .bytes t => s == t
  | .moment s, .moment t => s == t
  | .null, .null => true
  | .tuple s, .tuple t => Datum.sameKeys s t
  | a, b =>
    match a.keyNumber?, b.keyNumber? with
    | some m, some n => m.eqv n || (m.isNaN && n.isNaN)
    | _, _ => false

def Datum.sameKeys : List Datum → List Datum → Bool
  | [], [] => true
  | a :: s, b :: t => a.sameKey b && Datum.sameKeys s t
  | _, _ => false

end

mutual

/-- The first part of a key that may change. -/
def Datum.changingPart? : Datum → Option Yaml.Collection
  | .list _ => some .list
  | .table _ => some .table
  | .set _ => some .set
  | .tuple items => Datum.changingPartOf? items
  | _ => none

def Datum.changingPartOf? : List Datum → Option Yaml.Collection
  | [] => none
  | item :: rest => item.changingPart?.or (Datum.changingPartOf? rest)

end

/-- A list as a tuple, any other datum as it is. -/
def Datum.fixed : Datum → Datum
  | .list items => .tuple items
  | d => d

end SolidGeometry
