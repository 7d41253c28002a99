import SolidGeometry.Fault
import SolidGeometry.Number.Scalar
import SolidGeometry.Number.Shortest

namespace SolidGeometry.Number

/-- Where plain notation ends and how wide an exponent is. -/
structure Layout where
  /-- The least decimal exponent that is written without an exponent. -/
  leastPlain : Int
  /-- The least decimal exponent above the plain ones that is written with an exponent. -/
  leastScaled : Int
  /-- The least number of digits of a written exponent. -/
  exponentWidth : Nat

/-- Plain notation from `0.0001` up to sixteen whole digits, else exponents of two digits. -/
def messageLayout : Layout := ⟨-4, 16, 2⟩

/-- The decimal digits of a number, with zeros in front up to the given width. -/
def padded (width n : Nat) : List Char :=
  let digits := Nat.toDigits 10 n
  List.replicate (width - digits.length) '0' ++ digits

def withSign (negative : Bool) (text : List Char) : List Char :=
  if negative then '-' :: text else text

/-- A decimal without trailing zeros among its digits, written in a layout. There is always a digit
after the point of the plain notation. -/
def Decimal.write (layout : Layout) (d : Decimal) : List Char :=
  let digits := Nat.toDigits 10 d.digits
  let scale : Int := (digits.length : Int) - 1 + d.exponent
  withSign d.negative <|
    if layout.leastPlain ≤ scale ∧ scale < layout.leastScaled then
      if 0 ≤ d.exponent then digits ++ List.replicate d.exponent.toNat '0' ++ ['.', '0']
      else if 0 ≤ scale then
        digits.take (scale.toNat + 1) ++ '.' :: digits.drop (scale.toNat + 1)
      else '0' :: '.' :: List.replicate (-scale - 1).toNat '0' ++ digits
    else
      digits.take 1 ++ (if digits.length = 1 then [] else '.' :: digits.drop 1) ++
        'e' :: (if scale < 0 then '-' else '+') :: padded layout.exponentWidth scale.natAbs

/-- A float in full: the shortest digits that read back. -/
def writeFloat (x : Float) : String :=
  match Binary64.ofFloat x with
  | .finite negative mantissa exponent =>
    String.ofList ((shortest negative mantissa exponent).write messageLayout)
  | .infinite negative => if negative then "-inf" else "inf"
  | .nan => "nan"

/-- An integer in full, within the limit on digits. -/
def writeInt (n : Int) : Checked String :=
  if n.natAbs < Nat.pow 10 digitLimit then .ok (toString n) else .error (.refused (.digits .writing))

/-- The digits of a whole number with a comma between groups of three. -/
def groupThousands : List Char → List Char
  | [] => []
  | c :: rest =>
    if rest.length % 3 = 0 ∧ rest ≠ [] then c :: ',' :: groupThousands rest
    else c :: groupThousands rest

def dropTrailingZeros (digits : List Char) : List Char :=
  (digits.reverse.dropWhile (· == '0')).reverse

/-- How many units of the last of `places` decimal places the magnitude of a decimal comes to. -/
def Decimal.units (places : Nat) (d : Decimal) : Nat :=
  let shift := d.exponent + places
  roundHalfEven (d.digits * Nat.pow 10 shift.toNat) (Nat.pow 10 (-shift).toNat)

/-- A decimal rounded to at most `places` decimal places. Zeros at the end of the fraction are
dropped, and zero has no sign. -/
def Decimal.fixed (places : Nat) (grouping : Bool) (d : Decimal) : List Char :=
  let units := d.units places
  let whole := Nat.toDigits 10 (units / Nat.pow 10 places)
  let fraction := dropTrailingZeros (padded places (units % Nat.pow 10 places))
  withSign (d.negative && units != 0) <|
    (if grouping then groupThousands whole else whole) ++
      (if fraction = [] then [] else '.' :: fraction)

/-- How many digits a rounded number may have, those behind the point included. -/
def precisionLimit : Nat := 400

def displayFloat (places : Nat) (grouping : Bool) (x : Float) : Checked String :=
  match Binary64.ofFloat x with
  | .finite negative mantissa exponent =>
    let d := shortest negative mantissa exponent
    if d.units places < Nat.pow 10 precisionLimit then
      .ok (String.ofList (d.fixed places grouping))
    else .error (.refused .precision)
  | .infinite negative => .ok (if negative then "-Infinity" else "Infinity")
  | .nan => .ok "NaN"

end SolidGeometry.Number

namespace SolidGeometry.Scalar
open Number

/-- The number in full, as messages show it. A whole fraction is written without a denominator. -/
def text : Scalar → Checked String
  | int n => writeInt n
  | ratio q =>
    if q.den = 1 then writeInt q.num
    else do
      let above ← writeInt q.num
      let under ← writeInt q.den
      return above ++ "/" ++ under
  | float x => .ok (writeFloat x)
  | undefined => .ok (writeFloat notANumber)

/-- The number as a result. An integer is written in full; a fraction is first rounded to a
double. -/
def display (places : Nat) (grouping : Bool) : Scalar → Checked String
  | int n => writeInt n
  | a => do displayFloat places grouping (← a.toFloat)

end SolidGeometry.Scalar
