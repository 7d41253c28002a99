import SolidGeometry.Number.Digits
import SolidGeometry.Yaml.Moment
import SolidGeometry.Yaml.Uri

namespace SolidGeometry.Yaml
open Number

/-- The type of a node. -/
inductive Tag where
  | null
  | flag
  | int
  | float
  | bytes
  | moment
  | text
  | list
  | table
  | ordered
  | pairs
  | set
  /-- The key of tables that are merged into the one it stands in. -/
  | merge
  /-- The key of the scalar that a table may stand for. -/
  | default
  | unknown
  deriving DecidableEq, Repr

def tagPrefix : String := "tag:yaml.org,2002:"

def Tag.names : List (String × Tag) :=
  [("null", .null), ("bool", .flag), ("int", .int), ("float", .float), ("binary", .bytes),
    ("timestamp", .moment), ("str", .text), ("seq", .list), ("map", .table), ("omap", .ordered),
    ("pairs", .pairs), ("set", .set), ("merge", .merge), ("value", .default)]

def Tag.ofName (name : String) : Tag :=
  ((Tag.names.find? fun entry => tagPrefix ++ entry.1 == name).map (·.2)).getD .unknown

def isSpacedDigit (c : Char) : Bool := isDigit c || c == '_'

/-- Whether a number is negative, and its text without the sign. -/
def splitSign : List Char → Bool × List Char
  | '-' :: rest => (true, rest)
  | '+' :: rest => (false, rest)
  | text => (false, text)

/-- Whether a text is made of underscores and digits of a base, and not empty. -/
def isSpaced (base : Nat) (text : List Char) : Bool :=
  text != [] && text.all fun c => c == '_' || (digitValue? base c).isSome

/-- Whether a text is a number below sixty in one or two digits. -/
def isSixtieth : List Char → Bool
  | [c] => isDigit c
  | [a, b] => isDigit a && a ≤ '5' && isDigit b
  | _ => false

def colonParts (text : List Char) : List (List Char) :=
  ((String.ofList text).splitOn ":").map String.toList

/-- Whether a text is an unsigned integer in sixtieths. -/
def isSexagesimal (text : List Char) : Bool :=
  match colonParts text with
  | first :: part :: more =>
    first.head? != some '0' && first.head?.any isDigit && first.all isSpacedDigit &&
      (part :: more).all isSixtieth
  | _ => false

/-- Whether a plain scalar is an integer. The letter behind a zero tells its base. -/
def isInteger (minor : Nat) (text : List Char) : Bool :=
  let (_, digits) := splitSign text
  let marked := match digits with
    | '0' :: 'b' :: rest => isSpaced 2 rest
    | '0' :: 'x' :: rest => isSpaced 16 rest
    | '0' :: 'o' :: rest => minor != 1 && isSpaced 8 rest
    | _ => false
  let decimal :=
    if minor = 1 then
      isSpaced 8 digits || isSexagesimal digits ||
        (isSpaced 10 digits && digits.head? != some '0' && digits.head? != some '_')
    else isSpaced 10 digits
  text.head? != some '_' && (marked || decimal)

def isExponent (signNeeded : Bool) (text : List Char) : Bool :=
  match text with
  | [] => true
  | mark :: rest =>
    let (_, digits) := splitSign rest
    (mark == 'e' || mark == 'E') && digits != [] && digits.all isDigit &&
      !(signNeeded && digits == rest)

/-- Whether an unsigned text is a float in sixtieths. -/
def isSexagesimalFloat (text : List Char) : Bool :=
  match colonParts text with
  | first :: part :: more =>
    let parts := part :: more
    let last := parts.getLastD []
    let places := last.dropWhile (· != '.')
    first.head?.any isDigit && first.all isSpacedDigit &&
      (parts.dropLast ++ [last.takeWhile (· != '.')]).all isSixtieth &&
      places != [] && (places.drop 1).all isSpacedDigit
  | _ => false

def isInfinity (text : List Char) : Bool := [".inf", ".Inf", ".INF"].contains (String.ofList text)

def isNoNumber (text : List Char) : Bool := [".nan", ".NaN", ".NAN"].contains (String.ofList text)

/-- Whether a plain scalar is a decimal with a point or an exponent. Without digits in front of the
point, the exponent needs a sign, and version 1.1 takes none in front of the point. -/
def isDecimal (minor : Nat) (text : List Char) : Bool :=
  let (_, unsigned) := splitSign text
  let whole := unsigned.takeWhile isSpacedDigit
  match unsigned.dropWhile isSpacedDigit with
  | '.' :: rest =>
    if whole = [] then
      rest.head?.any isSpacedDigit && isExponent true (rest.dropWhile isSpacedDigit) &&
        (minor != 1 || unsigned == text)
    else whole.head? != some '_' && isExponent false (rest.dropWhile isSpacedDigit)
  | [] => false
  | rest => whole != [] && whole.head? != some '_' && isExponent false rest

/-- Whether a plain scalar is a float: a decimal, an infinity, or the mark of no number. -/
def isFloat (minor : Nat) (text : List Char) : Bool :=
  let (_, unsigned) := splitSign text
  isDecimal minor text || isInfinity unsigned || isNoNumber text ||
    (minor == 1 && isSexagesimalFloat unsigned)

def nullWords : List String := ["~", "null", "Null", "NULL"]

def flagWords : List String := ["true", "True", "TRUE", "false", "False", "FALSE"]

/-- The further truth values of version 1.1. -/
def oldFlagWords : List String :=
  ["y", "Y", "yes", "Yes", "YES", "n", "N", "no", "No", "NO", "on", "On", "ON", "off", "Off", "OFF"]

/-- Indicators that are scalars of no known type where they are taken for plain ones. -/
def bareIndicators : List String := ["!", "&", "*"]

/-- The type of a plain scalar by its spelling. A line feed at its end does not count. -/
def Tag.ofPlain (minor : Nat) (text : String) : Except Failure Tag :=
  let chars := dropLastFeed text.toList
  let word := String.ofList chars
  if minor ≠ 1 ∧ minor ≠ defaultMinor then .error (.version minor)
  else if text = "" ∨ word ∈ nullWords then .ok .null
  else if word ∈ flagWords ∨ (minor = 1 ∧ word ∈ oldFlagWords) then .ok .flag
  else if isFloat minor chars then .ok .float
  else if isInteger minor chars then .ok .int
  else if isMoment chars then .ok .moment
  else if word = "<<" then .ok .merge
  else if word = "=" then .ok .default
  else if word ∈ bareIndicators then .ok .unknown
  else .ok .text

end SolidGeometry.Yaml
