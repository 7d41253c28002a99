import SolidGeometry.Session
import SolidGeometry.Settings.Source
import SolidGeometry.Transcript

namespace SolidGeometry

/-- An error that no user is told as wrong input. -/
inductive Breakdown where
  | session (cause : SessionError)
  | settings (cause : SettingsError)
  deriving DecidableEq, Repr

def Breakdown.message : Breakdown → String
  | .session cause => cause.message
  | .settings cause => cause.message

inductive Ending where
  | done
  /-- The input was wrong. -/
  | refused
  /-- The command line was wrong. -/
  | misused
  | broken (cause : Breakdown)
  deriving DecidableEq, Repr

def Ending.code : Ending → Nat
  | .done => 0
  | .refused => 1
  | .misused => 2
  | .broken _ => 1

namespace Session

variable (session : Session) (stamp : String)

/-- The records that the log takes: all of them on the lowest level, and none on the others. -/
def record (records : List LogRecord) : Transcript :=
  if session.settings.level = .debug then .join (records.map (.logged stamp)) else .empty

def opening : Transcript := session.record stamp [⟨.calculator, "Logging initialized."⟩]

/-- The answer to a question, and whether the program goes on behind it. What is said about wrong
input is up to the caller. -/
def respond (wrong : String → Transcript × Option Ending) (question : String) :
    Transcript × Option Ending :=
  let answered := session.answer question
  let logged := session.record stamp answered.records
  match answered.result with
  | .ok answer =>
    let notes := answer.notes.map fun note => .told ("Warning: " ++ note ++ "\n")
    (logged ++ .join notes ++ .shown (answer.text ++ "\n"), none)
  | .error e =>
    if e.isReported then
      let (said, ending?) := wrong ("Wrong input: " ++ e.message ++ "\n")
      (logged ++ said, ending?)
    else (logged, some (.broken (.session e)))

def ask (question : String) : Transcript × Ending :=
  let (said, ending?) := session.respond stamp
    (fun message => (.told ("Error: " ++ message), some .refused)) question
  (said, ending?.getD .done)

/-- The reply to a line of a dialogue, and whether the dialogue ends with it. -/
def reply (line : String) : Transcript × Option Ending :=
  let question := Text.strip line
  if question ∈ session.settings.exitWords then (.empty, some .done)
  else if question = "" then (.empty, none)
  else session.respond stamp (fun message => (.shown message, none)) question

def prompt : Transcript := .shown session.settings.prompt

def farewell : Transcript × Ending := (.shown "\n", .done)

/-- One turn of a dialogue: what is said to a line, the next prompt included, or how the dialogue
ends with it. -/
def turn (line : String) : Transcript × Option Ending :=
  let (said, ending?) := session.reply stamp line
  (if ending?.isSome then said else said ++ session.prompt, ending?)

/-- The turns of a dialogue behind its first prompt. -/
def turns : List String → Transcript × Ending
  | [] => farewell
  | line :: rest =>
    let (said, ending?) := session.turn stamp line
    match ending? with
    | some ending => (said, ending)
    | none =>
      let (more, ending) := turns rest
      (said ++ more, ending)

/-- A dialogue about the lines of an input. -/
def converse (lines : List String) : Transcript × Ending :=
  let (said, ending) := session.turns stamp lines
  (session.prompt ++ said, ending)

end Session

end SolidGeometry
