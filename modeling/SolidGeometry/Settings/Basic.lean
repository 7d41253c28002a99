import SolidGeometry.Display
import SolidGeometry.Fault
import SolidGeometry.Number.Digits
import SolidGeometry.Settings.Datum
import SolidGeometry.Text.Blank

namespace SolidGeometry

inductive LogLevel where
  | debug
  | info
  | warning
  | error
  deriving DecidableEq, Repr

def LogLevel.label : LogLevel → String
  | .debug => "DEBUG"
  | .info => "INFO"
  | .warning => "WARNING"
  | .error => "ERROR"

def LogLevel.all : List LogLevel := [.debug, .info, .warning, .error]

/-- A number of decimal places that can be chosen. -/
def Places := { n : Nat // n ≤ placesLimit }
  deriving DecidableEq, Repr

instance : CoeOut Places Nat := ⟨Subtype.val⟩

structure Settings where
  prompt : String
  exitWords : List String
  places : Places
  grouping : Bool
  level : LogLevel
  deriving DecidableEq, Repr

def Settings.default : Settings :=
  ⟨"> ", ["quit", "exit"], ⟨3, by decide⟩, true, .warning⟩

def Settings.style (s : Settings) : NumberStyle := ⟨s.places, s.grouping⟩

theorem Settings.places_style (s : Settings) : s.style.places ≤ placesLimit := s.places.property

/-- What is wrong with the datum of a field. -/
inductive IssueKind where
  | unknownField
  | notText
  | notUnicode
  | notList
  | notInteger
  | unreadableInteger
  | oversizedInteger
  | fractional
  | infinite
  | notFlag
  | unreadableFlag
  | tooSmall
  | tooLarge
  | notAmong
  | noWords
  deriving DecidableEq, Repr

def IssueKind.label : IssueKind → String
  | .unknownField => "extra_forbidden"
  | .notText => "string_type"
  | .notUnicode => "string_unicode"
  | .notList => "list_type"
  | .notInteger => "int_type"
  | .unreadableInteger => "int_parsing"
  | .oversizedInteger => "int_parsing_size"
  | .fractional => "int_from_float"
  | .infinite => "finite_number"
  | .notFlag => "bool_type"
  | .unreadableFlag => "bool_parsing"
  | .tooSmall => "greater_than_equal"
  | .tooLarge => "less_than_equal"
  | .notAmong => "literal_error"
  | .noWords => "value_error"

structure Issue where
  field : String
  kind : IssueKind
  deriving DecidableEq, Repr

def Issue.sort (issues : List Issue) : List Issue :=
  issues.mergeSort fun a b =>
    decide (a.field < b.field) || (a.field == b.field && decide (a.kind.label ≤ b.kind.label))

/-- The whole number that a float is, if it is one. -/
def wholeFloat (x : Float) : Except IssueKind Int :=
  match Number.Binary64.ofFloat x with
  | .finite negative mantissa exponent =>
    let q := Number.scaledByTwo negative mantissa exponent
    if q.den = 1 then .ok q.num else .error .fractional
  | _ => .error .infinite

/-- The text without the zeros in front of a number; the last zero in front of a point or at the end
stays. A text that is no number is refused. -/
def dropLeadingZeros? : List Char → Option (List Char)
  | '0' :: rest => skip '0' rest
  | c :: rest => if c = '-' ∨ Number.isDigit c then some (c :: rest) else none
  | [] => none
where
  skip (last : Char) : List Char → Option (List Char)
    | [] => some [last]
    | c :: rest =>
      if c = '0' ∨ c = '_' then skip c rest
      else if c = '-' ∨ Number.isDigit c then some (c :: rest)
      else if c = '.' then some (last :: c :: rest)
      else none

/-- The text without a point behind which one or more zeros follow. -/
def dropZeroPlaces (text : List Char) : List Char :=
  match text.dropWhile (· != '.') with
  | '.' :: places =>
    if places != [] && places.all (· == '0') then text.takeWhile (· != '.') else text
  | _ => text

/-- Whether every underscore stands alone between other characters. -/
def separatesDigits (text : List Char) : Bool :=
  text.head? != some '_' && text.getLast? != some '_' &&
    (text.zip (text.drop 1)).all fun pair => !(pair.1 == '_' && pair.2 == '_')

/-- An integer in digits, with a minus sign if it is negative. -/
def signedDigits (text : List Char) : Except IssueKind Int :=
  let (negative, digits) := match text with
    | '-' :: digits => (true, digits)
    | _ => (false, text)
  if digits = [] ∨ !digits.all Number.isDigit then .error .unreadableInteger
  else if digitLimit < digits.length then .error .oversizedInteger
  else
    let magnitude := Number.ofDigits digits
    .ok (if negative then -(magnitude : Int) else magnitude)

/-- An integer as people write it: with white space around it, a sign, zeros in front, zero decimal
places and underscores between digits. -/
def lenientInteger (text : String) : Except IssueKind Int :=
  let trimmed := Text.trimBy Text.isWhite text.toList
  let unsigned := match trimmed with
    | '+' :: '-' :: _ => trimmed
    | '+' :: rest => rest
    | _ => trimmed
  match dropLeadingZeros? unsigned with
  | none => .error .unreadableInteger
  | some text =>
    let digits := dropZeroPlaces text
    signedDigits (if separatesDigits digits then digits.filter (· != '_') else digits)

def falseWords : List String := ["0", "off", "f", "false", "n", "no"]

def trueWords : List String := ["1", "on", "t", "true", "y", "yes"]

/-- The text that bytes are in UTF-8, or else an issue. -/
def textOfBytes (content : ByteArray) (issue : IssueKind) : Except IssueKind String :=
  (String.fromUTF8? content).elim (.error issue) .ok

def Datum.asText : Datum → Except IssueKind String
  | .text s => .ok s
  | .bytes content => textOfBytes content .notUnicode
  | _ => .error .notText

def Datum.asInteger : Datum → Except IssueKind Int
  | .int n => .ok n
  | .flag b => .ok (if b then 1 else 0)
  | .float x => wholeFloat x
  | .text s => lenientInteger s
  | .bytes content => do lenientInteger (← textOfBytes content .unreadableInteger)
  | _ => .error .notInteger

def Datum.asPlaces (d : Datum) : Except IssueKind Places := do
  let n ← d.asInteger
  if n < 0 then .error .tooSmall
  else if few : n ≤ placesLimit then .ok ⟨n.toNat, Int.toNat_le.mpr few⟩
  else .error .tooLarge

/-- The number of non-negative machine words. -/
def wordCount : Nat := Nat.pow 2 63

/-- A truth value given as a number. A number beyond the range of machine words is none at all. -/
def flagOfInteger (n : Int) : Except IssueKind Bool :=
  if n = 0 then .ok false
  else if n = 1 then .ok true
  else if -(wordCount : Int) ≤ n ∧ n < (wordCount : Int) then .error .unreadableFlag
  else .error .notFlag

/-- A truth value given as a word in letters of any case. -/
def flagOfWord (word : String) : Except IssueKind Bool :=
  if word.toLower ∈ falseWords then .ok false
  else if word.toLower ∈ trueWords then .ok true
  else .error .unreadableFlag

def Datum.asFlag : Datum → Except IssueKind Bool
  | .flag b => .ok b
  | .int n => flagOfInteger n
  | .float x =>
    match wholeFloat x with
    | .ok n => flagOfInteger n
    | .error _ => .error .notFlag
  | .text s => flagOfWord s
  | .bytes content => do flagOfWord (← textOfBytes content .unreadableFlag)
  | _ => .error .notFlag

/-- The upper-case form of a letter as far as the names of levels can hold it. -/
def upperLetter (c : Char) : Char :=
  if c = 'ı' then 'I' else c.toUpper

def LogLevel.ofName? (name : String) : Option LogLevel :=
  let upper := name.map upperLetter
  LogLevel.all.find? (·.label == upper)

def Datum.asLevel : Datum → Except IssueKind LogLevel
  | .text s => (LogLevel.ofName? s).elim (.error .notAmong) .ok
  | _ => .error .notAmong

/-- Words without the blanks around them; empty ones are dropped, one must be left. -/
def wordsOf (field : String) (items : List Datum) : Except (List Issue) (List String) :=
  let texts := items.map Datum.asText
  let issues := texts.zipIdx.filterMap fun item =>
    match item.1 with
    | .ok _ => none
    | .error kind => some (⟨field ++ "." ++ toString item.2, kind⟩ : Issue)
  let words := ((texts.filterMap Except.toOption).map Text.strip).filter (· ≠ "")
  if issues ≠ [] then .error issues
  else if words = [] then .error [⟨field, .noWords⟩]
  else .ok words

def Datum.asWords (field : String) : Datum → Except (List Issue) (List String)
  | .list items | .tuple items | .set items => wordsOf field items
  | _ => .error [⟨field, .notList⟩]

/-- A field of a table by a rule, or its default. -/
def readField {α : Type} (entries : List (String × Datum)) (field : String) (default : α)
    (rule : Datum → Except (List Issue) α) : Except (List Issue) α :=
  match entries.lookup field with
  | none => .ok default
  | some datum => rule datum

/-- A rule for one field, with its issue told for the field. -/
def atField {α : Type} (field : String) (rule : Datum → Except IssueKind α) (d : Datum) :
    Except (List Issue) α :=
  (rule d).mapError fun kind => [⟨field, kind⟩]

def issuesOf {α : Type} : Except (List Issue) α → List Issue
  | .ok _ => []
  | .error issues => issues

def Settings.fields : List String :=
  ["prompt", "exit_commands", "max_fraction_digits", "grouping", "log_level"]

/-- Settings from the entries of a table, or all that is wrong with them. -/
def Settings.ofEntries (entries : List (String × Datum)) : Except (List Issue) Settings :=
  let d := Settings.default
  let prompt := readField entries "prompt" d.prompt (atField "prompt" Datum.asText)
  let words := readField entries "exit_commands" d.exitWords (Datum.asWords "exit_commands")
  let places := readField entries "max_fraction_digits" d.places
    (atField "max_fraction_digits" Datum.asPlaces)
  let grouping := readField entries "grouping" d.grouping (atField "grouping" Datum.asFlag)
  let level := readField entries "log_level" d.level (atField "log_level" Datum.asLevel)
  let unknown := (entries.filter fun entry => entry.1 ∉ Settings.fields).map fun entry =>
    (⟨entry.1, .unknownField⟩ : Issue)
  let issues := unknown ++ issuesOf prompt ++ issuesOf words ++ issuesOf places ++
    issuesOf grouping ++ issuesOf level
  match prompt, words, places, grouping, level, unknown with
  | .ok prompt, .ok words, .ok places, .ok grouping, .ok level, [] =>
    .ok ⟨prompt, words, places, grouping, level⟩
  | _, _, _, _, _, _ => .error (Issue.sort issues)

end SolidGeometry
