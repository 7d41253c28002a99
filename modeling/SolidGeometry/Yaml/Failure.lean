import SolidGeometry.Fault
import SolidGeometry.Text.Quoted

namespace SolidGeometry.Yaml

/-- What is wrong with a date or a time of day. -/
inductive MomentFault where
  | year (n : Nat)
  | month
  | day
  | hour
  | minute
  | second
  /-- The distance of a time zone is a day or more. -/
  | offset (minutes : Int)
  /-- The moment is rounded up into a year that is too late. -/
  | tooLate
  deriving DecidableEq, Repr

/-- A distance in time in whole days and seconds. -/
def distanceText (minutes : Int) : String :=
  let seconds := minutes % 1440 * 60
  let rest := if seconds = 0 then "" else ", seconds=" ++ toString seconds
  "datetime.timedelta(days=" ++ toString (minutes / 1440) ++ rest ++ ")"

def MomentFault.message : MomentFault → String
  | .year n => s!"year {n} is out of range"
  | .month => "month must be in 1..12"
  | .day => "day is out of range for month"
  | .hour => "hour must be in 0..23"
  | .minute => "minute must be in 0..59"
  | .second => "second must be in 0..59"
  | .offset minutes =>
    "offset must be a timedelta strictly between -timedelta(hours=24) and timedelta(hours=24), " ++
      "not " ++ distanceText minutes ++ "."
  | .tooLate => "date value out of range"

/-- Data with parts, which may change and therefore tell no keys apart. -/
inductive Collection where
  | list
  | table
  | set
  deriving DecidableEq, Repr

def Collection.label : Collection → String
  | .list => "list"
  | .table => "dict"
  | .set => "set"

inductive Failure where
  | malformed
  /-- The digits of an integer do not fit its base. -/
  | integer (base : Nat) (text : String)
  | digits (cause : DigitFault)
  | float (text : String)
  /-- There is no text to read a number from. -/
  | noNumber
  /-- A float has more than one mark of an exponent. -/
  | exponents
  /-- A word is no truth value. -/
  | flag (word : String)
  | moment (cause : MomentFault)
  /-- An escape asks for a code point beyond the last one. -/
  | character (code : Nat)
  /-- A list as a key holds what is no key. -/
  | key (part : Collection)
  /-- A key stands twice in an ordered table. -/
  | repeated
  /-- The rules for plain scalars are not known for a version. -/
  | version (minor : Nat)
  deriving DecidableEq, Repr

/-- The longest part of a wrong integer that is told. -/
def excerptLength : Nat := 200

/-- A code point as the signed machine word that it has to fit. -/
def wordLimit : Nat := Nat.pow 2 31

def Failure.message : Failure → String
  | .malformed => "Invalid YAML"
  | .integer base text =>
    s!"invalid literal for int() with base {base}: " ++
      String.ofList ((Text.quoted text).toList.take excerptLength)
  | .digits cause => cause.message
  | .float text => "could not convert string to float: " ++ Text.quoted text
  | .noNumber => "string index out of range"
  | .exponents => "too many values to unpack (expected 2)"
  | .flag word => Text.quoted word
  | .moment cause => cause.message
  | .character code =>
    if code < wordLimit then "chr() arg not in range(0x110000)"
    else "Python int too large to convert to C int"
  | .key part => "unhashable type: " ++ Text.quoted part.label
  | .repeated => ""
  | .version minor => s!"(1, {minor})"

end SolidGeometry.Yaml
