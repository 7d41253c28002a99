import SolidGeometry.CommandLine.Choices
import SolidGeometry.Dialogue
import SolidGeometry.Text.Lines

namespace SolidGeometry.CommandLine

/-- A session with the path of its log file. -/
structure Task where
  session : Session
  logFile? : Option String

inductive Job where
  | inform (text : String)
  | evaluate (task : Task) (expression : String)
  | converse (task : Task)

/-- Why a command line asks for nothing. -/
inductive JobError where
  | usage (scope : Scope) (cause : UsageError)
  | policy (cause : UnknownCode)
  | settings (cause : SettingsError)
  deriving DecidableEq, Repr

def JobError.transcript : JobError → Transcript
  | .usage scope cause => .told (cause.report scope)
  | .policy cause => .told ("Error: " ++ cause.message ++ "\n")
  | .settings cause =>
    if cause.isReported then .told ("Error: " ++ cause.message ++ "\n") else .empty

def JobError.ending : JobError → Ending
  | .usage _ _ => .misused
  | .policy _ => .refused
  | .settings cause => if cause.isReported then .refused else .broken (.settings cause)

/-- The settings of a file, if one is chosen, under the other choices. -/
def Choices.settings (choices : Choices) (files : Files) : Except SettingsError Settings := do
  let settings ← choices.settings?.elim (.ok Settings.default) (Settings.ofFile files)
  return { settings with
    places := choices.places?.getD settings.places
    level := choices.level?.getD settings.level }

/-- The task of a command. A path without letters is no log file. -/
def Choices.task (choices : Choices) (files : Files) : Except JobError Task := do
  let policy? ← (Policy.ofLists choices.promoted? choices.suppressed?).mapError .policy
  let settings ← (choices.settings files).mapError .settings
  return ⟨⟨settings, policy?⟩, choices.logFile?.filter (· ≠ "")⟩

def expressionOf : List String → Except UsageError String
  | [] => .error .missingExpression
  | [expression] => .ok expression
  | _ :: extra => .error (.extraOperands extra)

def noOperands : List String → Except UsageError Unit
  | [] => .ok ()
  | extra => .error (.extraOperands extra)

def Command.job (command : Command) (files : Files) (rest : List String) :
    Except JobError Job := do
  let scope := Scope.command command
  let inScope {α : Type} (result : Except UsageError α) : Except JobError α :=
    result.mapError (.usage scope)
  let words ← inScope (Words.ofList scope rest)
  if words.given.any (·.1 == .help) then return .inform scope.help
  let choices ← inScope (Choices.ofWords files words)
  match command with
  | .evaluate =>
    let expression ← inScope (expressionOf words.operands)
    return .evaluate (← choices.task files) expression
  | .converse =>
    inScope (noOperands words.operands)
    return .converse (← choices.task files)

/-- The text about the program that a switch asks for. -/
def Switch.information : Switch → String
  | .version => programName ++ ", version " ++ programVersion ++ "\n"
  | _ => Scope.program.help

def Job.ofWords (files : Files) (line : List String) : Except JobError Job := do
  let words ← (Words.ofList .program line).mapError (.usage .program)
  match words.given, words.operands with
  | (switch, _) :: _, _ => return .inform switch.information
  | [], [] => .error (.usage .program .missingCommand)
  | [], name :: rest =>
    match Command.all.find? (·.name == name) with
    | some command => command.job files rest
    | none =>
      let similar := Text.similarWords name (Command.all.map (·.name))
      .error (.usage .program (.unknownCommand name similar))

/-- Whether a program is at its end or waits for the lines of its input. -/
inductive Progress where
  | ended (ending : Ending)
  | awaiting (session : Session)

/-- What a program does in front of the first line of its input. The log file is written anew, also
if nothing is logged. -/
structure Start where
  logFile? : Option String
  said : Transcript
  progress : Progress

/-- The start of a task, behind the start of its log. -/
def Task.start (task : Task) (stamp : String) (said : Transcript) (progress : Progress) : Start :=
  ⟨task.logFile?, task.session.opening stamp ++ said, progress⟩

def Job.start (stamp : String) : Job → Start
  | .inform text => ⟨none, .shown text, .ended .done⟩
  | .evaluate task expression =>
    let (said, ending) := task.session.ask stamp expression
    task.start stamp said (.ended ending)
  | .converse task => task.start stamp .empty (.awaiting task.session)

def start (files : Files) (stamp : String) (line : List String) : Start :=
  match Job.ofWords files line with
  | .error e => ⟨none, e.transcript, .ended e.ending⟩
  | .ok job => job.start stamp

def Progress.finish (stamp input : String) : Progress → Transcript × Ending
  | .ended ending => (.empty, ending)
  | .awaiting session => session.converse stamp (Text.lines input)

/-- What a program has left behind at its end. -/
structure Outcome where
  transcript : Transcript
  ending : Ending
  files : Files

/-- The outcome of a command line, for an input and the files that are there. -/
def run (files : Files) (stamp input : String) (line : List String) : Outcome :=
  let begun := start files stamp line
  let (said, ending) := begun.progress.finish stamp input
  let transcript := begun.said ++ said
  ⟨transcript, ending, begun.logFile?.elim files (files.write · transcript.log)⟩

end SolidGeometry.CommandLine
