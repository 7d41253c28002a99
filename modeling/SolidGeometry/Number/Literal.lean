import SolidGeometry.Noted
import SolidGeometry.Number.Digits
import SolidGeometry.Number.Scalar
import SolidGeometry.Text.Quoted

namespace SolidGeometry.Number

inductive Sign where
  | absent
  | plus
  | minus
  deriving DecidableEq, Repr

def Sign.spelling : Sign → List Char
  | .absent => []
  | .plus => ['+']
  | .minus => ['-']

/-- What follows the whole digits of a literal. -/
inductive Tail where
  | absent
  | denominator (digits : List Char)
  | places (digits : List Char)
  deriving DecidableEq, Repr

def Tail.spelling : Tail → List Char
  | .absent => []
  | .denominator digits => '/' :: digits
  | .places digits => '.' :: digits

/-- A literal without the blanks behind its sign. -/
structure Literal where
  sign : Sign
  digits : List Char
  tail : Tail
  deriving DecidableEq, Repr

def Literal.spelling (l : Literal) : List Char :=
  l.sign.spelling ++ l.digits ++ l.tail.spelling

def isInnerBlank (c : Char) : Bool := c == ' ' || c == '\t'

/-- The sign at the front of a text with the blanks behind it, and the rest. -/
def scanSign : List Char → Sign × List Char
  | '+' :: rest => (.plus, rest.dropWhile isInnerBlank)
  | '-' :: rest => (.minus, rest.dropWhile isInnerBlank)
  | text => (.absent, text)

/-- The denominator or the decimal places at the front of a text, and the rest. -/
def scanTail (text : List Char) : Tail × List Char :=
  match text with
  | '/' :: rest =>
    if rest.takeWhile isDigit = [] then (.absent, text)
    else (.denominator (rest.takeWhile isDigit), rest.dropWhile isDigit)
  | '.' :: rest =>
    if rest.takeWhile isDigit = [] then (.absent, text)
    else (.places (rest.takeWhile isDigit), rest.dropWhile isDigit)
  | _ => (.absent, text)

/-- The longest literal at the front of a text, and the rest. -/
def Literal.scan? (text : List Char) : Option (Literal × List Char) :=
  let (sign, unsigned) := scanSign text
  let digits := unsigned.takeWhile isDigit
  if digits = [] then none
  else
    let (tail, rest) := scanTail (unsigned.dropWhile isDigit)
    some (⟨sign, digits, tail⟩, rest)

/-- Decimal digits as an integer, within the limit on digits. -/
def readDigits (digits : List Char) : Checked Nat :=
  if digits.length ≤ digitLimit then .ok (ofDigits digits)
  else .error (.refused (.digits (.reading digits.length)))

def Sign.apply (sign : Sign) (magnitude : Nat) : Int :=
  if sign = .minus then -(magnitude : Int) else magnitude

/-- The double nearest to a decimal, an infinity beyond the range of doubles. Zero keeps its
sign. -/
def decimalFloat (sign : Sign) (digits places : List Char) : Float :=
  nearestDecimal (decide (sign = .minus)) (ofDigits (digits ++ places)) (Nat.pow 10 places.length)

/-- The number a literal stands for. A zero denominator leaves no number and a warning. -/
def Literal.value (l : Literal) : Computation Scalar :=
  match l.tail with
  | .absent => do return .int (l.sign.apply (← readDigits l.digits))
  | .places places => return .float (decimalFloat l.sign l.digits places)
  | .denominator digits => do
    let denominator ← readDigits digits
    if denominator = 0 then
      let spelling := Text.quoted (String.ofList l.spelling)
      Noted.warn .division s!"Division by zero in literal {spelling}"
      return .undefined
    else
      let numerator ← readDigits l.digits
      return .ofRat (mkRat (l.sign.apply numerator) denominator)

def Literal.ofText? (text : String) : Option Literal :=
  match Literal.scan? text.toList with
  | some (literal, []) => some literal
  | _ => none

end SolidGeometry.Number
