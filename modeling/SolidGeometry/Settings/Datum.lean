namespace SolidGeometry

/-- A moment in time: a day by its number, or a time in millionths of a second, either by the clock
at hand or as an instant of world time. -/
inductive Moment where
  | day (number : Nat)
  | clock (time : Nat)
  | instant (time : Int)
  deriving DecidableEq, Repr, Inhabited

inductive Datum where
  | null
  | flag (b : Bool)
  | int (n : Int)
  | float (x : Float)
  | text (s : String)
  | bytes (content : ByteArray)
  | moment (m : Moment)
  | list (items : List Datum)
  /-- A list that is fixed, and so may be a key. -/
  | tuple (items : List Datum)
  | set (items : List Datum)
  | table (entries : List (Datum × Datum))
  deriving Inhabited

def Datum.text? : Datum → Option String
  | .text s => some s
  | _ => none

/-- The entries of a table, unless a key is no text. -/
def textEntries? (entries : List (Datum × Datum)) : Option (List (String × Datum)) :=
  entries.mapM fun entry => entry.1.text?.map (·, entry.2)

end SolidGeometry
