import SolidGeometry.CommandLine.Switch

namespace SolidGeometry.CommandLine

/-- Switches with their values in the order in which they stand, and operands. -/
structure Words where
  given : List (Switch × String)
  operands : List String
  deriving DecidableEq, Repr

def looksLikeSwitch (word : String) : Bool := word.startsWith "-" && word != "-"

/-- A word in front of its first equals sign, and what stands behind that. -/
def splitValue (word : String) : String × Option String :=
  let text := word.toList
  let name := String.ofList (text.takeWhile (· != '='))
  match text.dropWhile (· != '=') with
  | _ :: value => (name, some (String.ofList value))
  | [] => (name, none)

/-- The switch that a word names, and the value that it brings with it. No switch has a single dash,
so behind one the first letter is at fault. -/
def Scope.readSwitch (scope : Scope) (word : String) :
    Except UsageError (Switch × Option String) :=
  let (name, value?) := splitValue word
  match scope.switches.find? (·.name == name) with
  | some switch =>
    if value?.isSome && !switch.takesValue then .error (.unwantedValue switch)
    else .ok (switch, value?)
  | none =>
    if word.startsWith "--" then
      .error (.unknownSwitch name (Text.similarWords name (scope.switches.map (·.name))))
    else .error (.unknownSwitch (String.ofList (word.toList.take 2)) [])

def Words.ofList (scope : Scope) : List String → Except UsageError Words
  | [] => .ok ⟨[], []⟩
  | word :: rest =>
    if word = "--" then .ok ⟨[], rest⟩
    else if !looksLikeSwitch word then
      if scope.mixes then do
        let words ← Words.ofList scope rest
        return { words with operands := word :: words.operands }
      else .ok ⟨[], word :: rest⟩
    else
      match scope.readSwitch word with
      | .error e => .error e
      | .ok (switch, value?) =>
        if switch.takesValue && value?.isNone then
          match rest with
          | [] => .error (.missingValue switch)
          | value :: rest => do
            let words ← Words.ofList scope rest
            return { words with given := (switch, value) :: words.given }
        else do
          let words ← Words.ofList scope rest
          return { words with given := (switch, value?.getD "") :: words.given }

/-- The switches in the order in which they first stand, each with the last of its values. -/
def Words.values (words : Words) : List (Switch × String) :=
  let latest := words.given.reverse
  ((words.given.map (·.1)).eraseDups).filterMap fun switch =>
    (latest.lookup switch).map (switch, ·)

end SolidGeometry.CommandLine
