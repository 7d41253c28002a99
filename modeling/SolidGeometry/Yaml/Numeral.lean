import SolidGeometry.Number.Binary64
import SolidGeometry.Text.Blank
import SolidGeometry.Text.Lowercase
import SolidGeometry.Yaml.Tag

namespace SolidGeometry.Yaml
open Number

def withoutUnderscores (digits : List Char) : List Char := digits.filter (· != '_')

def signedInt (negative : Bool) (magnitude : Nat) : Int :=
  if negative then -(magnitude : Int) else magnitude

/-- The value of a digit of any script in a base. -/
def anyDigit? (base : Nat) (c : Char) : Option Nat :=
  (decimalValue? c <|> digitValue? 16 c).filter (· < base)

def dropBaseMark (base : Nat) : List Char → List Char
  | '0' :: mark :: rest =>
    let marks := if base = 2 then ['b', 'B'] else if base = 8 then ['o', 'O']
      else if base = 16 then ['x', 'X'] else []
    if marks.contains mark then rest else '0' :: mark :: rest
  | digits => digits

def integerIn (base : Nat) (text : List Char) : Except Failure Int :=
  let (negative, unsigned) := splitSign (Text.trimBy Text.isWhite text)
  let digits := dropBaseMark base unsigned
  let values := (digits.map (anyDigit? base)).takeWhile Option.isSome
  if base = 10 ∧ digitLimit < values.length then .error (.digits (.reading values.length))
  else if digits = [] ∨ values.length < digits.length then
    .error (.integer base (String.ofList text))
  else .ok (signedInt negative (values.foldl (fun n v => base * n + v.getD 0) 0))

/-- The number in base sixty with the given digits, the highest first. -/
def ofSixtieths (digits : List Int) : Int := digits.foldl (60 * · + ·) 0

/-- The integer of a scalar. In version 1.1 a zero in front makes it octal, and colons stand between
sixtieths. -/
def integerOf (minor : Nat) (text : String) : Except Failure Int := do
  let digits := withoutUnderscores text.toList
  let (negative, unsigned) := splitSign digits
  let apply (n : Int) : Int := if negative then -n else n
  if digits = [] then .error .noNumber
  match unsigned with
  | '0' :: 'b' :: rest => return apply (← integerIn 2 rest)
  | '0' :: 'x' :: rest => return apply (← integerIn 16 rest)
  | '0' :: 'o' :: rest => return apply (← integerIn 8 rest)
  | _ =>
    if minor ≠ 1 ∨ unsigned = ['0'] then return apply (← integerIn 10 unsigned)
    else if unsigned = [] then .error .noNumber
    else if unsigned.head? = some '0' then return apply (← integerIn 8 unsigned)
    else if unsigned.contains ':' then
      return apply (ofSixtieths (← (colonParts unsigned).mapM (integerIn 10)))
    else return apply (← integerIn 10 unsigned)

/-- The float nearest to a decimal times a power of ten. A power that leaves the range of doubles in
any case is cut short. -/
def scaledDecimal (negative : Bool) (digits places : List Char) (exponent : Int) : Float :=
  let bound : Int := digits.length + places.length + 400
  let power := max (-bound) (min bound exponent)
  nearestDecimal negative (ofDigits (digits ++ places) * Nat.pow 10 power.toNat)
    (Nat.pow 10 (places.length + (-power).toNat))

/-- The exponent that a text consists of, zero if it is empty. -/
def exponent? : List Char → Option Int
  | [] => some 0
  | 'e' :: rest =>
    let (negative, digits) := splitSign rest
    if digits.all isDigit then (ofDigitsIn? 10 digits).map (signedInt negative) else none
  | _ => none

def westernDigits (text : List Char) : List Char :=
  text.map fun c => ((decimalValue? c).map (Char.ofNat <| '0'.toNat + ·)).getD c

/-- The float that a text of small letters stands for. -/
def plainFloat (text : List Char) : Except Failure Float :=
  let (negative, unsigned) := splitSign (westernDigits (Text.trimBy Text.isWhite text))
  let whole := unsigned.takeWhile isDigit
  let rest := unsigned.dropWhile isDigit
  let (places, rest) := match rest with
    | '.' :: rest => (rest.takeWhile isDigit, rest.dropWhile isDigit)
    | _ => ([], rest)
  let word := String.ofList unsigned
  if word = "inf" ∨ word = "infinity" then .ok (signed negative infinityBits)
  else if word = "nan" then .ok notANumber
  else
    match exponent? rest with
    | some exponent =>
      if whole ++ places = [] then .error (.float (String.ofList text))
      else .ok (scaledDecimal negative whole places exponent)
    | none => .error (.float (String.ofList text))

/-- The number in base sixty with the given digits, the highest first. -/
def ofFloatSixtieths (digits : List Float) : Float :=
  (digits.reverse.foldl (fun (sum, base) digit => (sum + digit * base, 60 * base))
    ((0 : Float), (1 : Float))).1

/-- The float of a scalar. Outside version 1.2 colons stand between sixtieths. -/
def floatOf (minor : Nat) (text : String) : Except Failure Float := do
  let digits := (Text.lowercase (String.ofList (withoutUnderscores text.toList))).toList
  let (negative, unsigned) := splitSign digits
  let apply (x : Float) : Float := if negative then -x else x
  if digits = [] then .error .noNumber
  else if unsigned = ".inf".toList then return signed negative infinityBits
  else if unsigned = ".nan".toList then return notANumber
  else if minor ≠ defaultMinor ∧ unsigned.contains ':' then
    return apply (ofFloatSixtieths (← (colonParts unsigned).mapM plainFloat))
  else if minor ≠ defaultMinor ∧ 1 < unsigned.count 'e' then .error .exponents
  else return apply (← plainFloat unsigned)

end SolidGeometry.Yaml
