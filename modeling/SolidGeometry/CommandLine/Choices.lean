import SolidGeometry.CommandLine.Words
import SolidGeometry.Files
import SolidGeometry.Number.Digits
import SolidGeometry.Settings.Basic

namespace SolidGeometry.CommandLine

structure Choices where
  settings? : Option String
  places? : Option Places
  level? : Option LogLevel
  logFile? : Option String
  promoted? : Option String
  suppressed? : Option String
  deriving DecidableEq, Repr

def Choices.unmade : Choices := ⟨none, none, none, none, none, none⟩

/-- The digits of a text in which single underscores may stand between digits. -/
def spacedDigits? : List Char → Option (List Nat)
  | [] => none
  | [c] => (Number.decimalValue? c).map ([·])
  | c :: '_' :: rest => do return (← Number.decimalValue? c) :: (← spacedDigits? rest)
  | c :: rest => do return (← Number.decimalValue? c) :: (← spacedDigits? rest)

/-- An integer in decimal digits of any script, with a sign and white space around it. -/
def integer? (word : String) : Option Int := do
  let text := Text.trimBy Text.isWhite word.toList
  let (negative, unsigned) := match text with
    | '-' :: rest => (true, rest)
    | '+' :: rest => (false, rest)
    | _ => (false, text)
  let digits ← spacedDigits? unsigned
  if digitLimit < digits.length then none
  else
    let magnitude : Nat := digits.foldl (fun n d => 10 * n + d) 0
    return if negative then -(magnitude : Int) else magnitude

def placesOf (word : String) : Except BadValue Places :=
  match integer? word with
  | none => .error (.notInteger word)
  | some n =>
    if range : 0 ≤ n ∧ n ≤ placesLimit then .ok ⟨n.toNat, Int.toNat_le.mpr range.2⟩
    else .error (.outOfRange n placesLimit)

def levelOf (word : String) : Except BadValue LogLevel :=
  match LogLevel.all.find? fun level => level.label.toLower == word.toLower with
  | some level => .ok level
  | none => .error (.notAmong word (LogLevel.all.map fun level => level.label.toLower))

/-- The path of a file that is there. -/
def presentFile (files : Files) (path : String) : Except BadValue String :=
  match files.find? path with
  | some (.text _) => .ok path
  | some .folder => .error (.folder path)
  | none => .error (.missingFile path)

/-- The path of a file that may be made. -/
def possibleFile (files : Files) (path : String) : Except BadValue String :=
  match files.find? path with
  | some .folder => .error (.folder path)
  | _ => .ok path

def Choices.set (files : Files) (choices : Choices) (given : Switch × String) :
    Except UsageError Choices :=
  let (switch, word) := given
  let chosen : Except BadValue Choices :=
    match switch with
    | .settings => do return { choices with settings? := some (← presentFile files word) }
    | .places => do return { choices with places? := some (← placesOf word) }
    | .level => do return { choices with level? := some (← levelOf word) }
    | .logFile => do return { choices with logFile? := some (← possibleFile files word) }
    | .promote => .ok { choices with promoted? := some word }
    | .suppress => .ok { choices with suppressed? := some word }
    | .version | .help => .ok choices
  chosen.mapError (.invalidValue switch)

def Choices.ofWords (files : Files) (words : Words) : Except UsageError Choices :=
  words.values.foldlM (Choices.set files) Choices.unmade

end SolidGeometry.CommandLine
