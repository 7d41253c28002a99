import SolidGeometry.Text.Quoted
import SolidGeometry.Text.Similarity

namespace SolidGeometry.CommandLine

def programName : String := "space-vectors"

def programVersion : String := "0.3.0"

inductive Switch where
  | settings
  | places
  | level
  | logFile
  | promote
  | suppress
  | version
  | help
  deriving DecidableEq, Repr

def Switch.name : Switch → String
  | .settings => "--config"
  | .places => "--precision"
  | .level => "--log-level"
  | .logFile => "--log-file"
  | .promote => "--warn-as-error"
  | .suppress => "--suppress-warning"
  | .version => "--version"
  | .help => "--help"

/-- Whether a value belongs to a switch. The others ask for a text about the program. -/
def Switch.takesValue : Switch → Bool
  | .version | .help => false
  | _ => true

inductive Command where
  | evaluate
  | converse
  deriving DecidableEq, Repr

def Command.all : List Command := [.evaluate, .converse]

def Command.name : Command → String
  | .evaluate => "eval"
  | .converse => "repl"

/-- Whose words are read: those of the program, or those behind a command. -/
inductive Scope where
  | program
  | command (c : Command)
  deriving DecidableEq, Repr

namespace Scope

def switches : Scope → List Switch
  | program => [.version, .help]
  | command _ => [.settings, .places, .level, .logFile, .promote, .suppress, .help]

/-- Whether switches may stand behind operands. -/
def mixes : Scope → Bool
  | program => false
  | command _ => true

def name : Scope → String
  | program => programName
  | command c => programName ++ " " ++ c.name

def usage (scope : Scope) : String :=
  "Usage: " ++ scope.name ++ match scope with
    | program => " [OPTIONS] COMMAND [ARGS]...\n"
    | command .evaluate => " [OPTIONS] EXPRESSION\n"
    | command .converse => " [OPTIONS]\n"

def help (scope : Scope) : String :=
  let lines (names : List String) := String.join (names.map fun name => "  " ++ name ++ "\n")
  let commands := match scope with
    | program => "\nCommands:\n" ++ lines (Command.all.map (·.name))
    | command _ => ""
  scope.usage ++ "\nOptions:\n" ++ lines (scope.switches.map (·.name)) ++ commands

end Scope

/-- What is wrong with the value of a switch. -/
inductive BadValue where
  | notInteger (spelling : String)
  | outOfRange (value : Int) (limit : Nat)
  | notAmong (spelling : String) (choices : List String)
  | missingFile (path : String)
  | folder (path : String)
  deriving DecidableEq, Repr

def BadValue.message : BadValue → String
  | .notInteger spelling => Text.quoted spelling ++ " is not a valid integer range."
  | .outOfRange value limit =>
    toString value ++ " is not in the range 0<=x<=" ++ toString limit ++ "."
  | .notAmong spelling choices =>
    Text.quoted spelling ++ " is not one of " ++ ", ".intercalate (choices.map Text.quoted) ++ "."
  | .missingFile path => "File " ++ Text.quoted path ++ " does not exist."
  | .folder path => "File " ++ Text.quoted path ++ " is a directory."

/-- What is wrong with the words of a command line. -/
inductive UsageError where
  | unknownSwitch (spelling : String) (similar : List String)
  | missingValue (switch : Switch)
  | unwantedValue (switch : Switch)
  | invalidValue (switch : Switch) (cause : BadValue)
  | missingCommand
  | unknownCommand (spelling : String) (similar : List String)
  | missingExpression
  | extraOperands (operands : List String)
  deriving DecidableEq, Repr

def suggestion : List String → String
  | [] => ""
  | [word] => " Did you mean " ++ Text.quoted word ++ "?"
  | words => " (Possible options: " ++ ", ".intercalate (words.map Text.quoted) ++ ")"

def UsageError.message : UsageError → String
  | .unknownSwitch spelling similar =>
    "No such option " ++ Text.quoted spelling ++ "." ++ suggestion similar
  | .missingValue switch => "Option " ++ Text.quoted switch.name ++ " requires an argument."
  | .unwantedValue switch => "Option " ++ Text.quoted switch.name ++ " does not take a value."
  | .invalidValue switch cause =>
    "Invalid value for " ++ Text.quoted switch.name ++ ": " ++ cause.message
  | .missingCommand => "Missing command."
  | .unknownCommand spelling similar =>
    "No such command " ++ Text.quoted spelling ++ "." ++ suggestion similar
  | .missingExpression => "Missing argument 'EXPRESSION'."
  | .extraOperands operands =>
    "Got unexpected extra argument" ++ (if operands.length = 1 then "" else "s") ++ " (" ++
      " ".intercalate operands ++ ")"

/-- The full text about an error in the words of a scope. -/
def UsageError.report (scope : Scope) (e : UsageError) : String :=
  scope.usage ++ "Try " ++ Text.quoted (scope.name ++ " --help") ++ " for help.\n\nError: " ++
    e.message ++ "\n"

end SolidGeometry.CommandLine
