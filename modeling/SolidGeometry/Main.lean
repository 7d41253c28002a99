import SolidGeometry.CommandLine.Job
import Std.Time

/-! The program. It runs what `CommandLine.run` describes, `start` and then the turns of a dialogue,
and prints and logs each part as soon as it is there. -/
namespace SolidGeometry.CommandLine

def stampNow : IO String := do
  return (← Std.Time.PlainTime.now).format "HH:mm:ss"

def entryAt? (path : String) : IO (Option Entry) := do
  try
    return some (.text (← IO.FS.readFile path))
  catch
    | .inappropriateType .. => return some .folder
    | .illegalOperation .. => return some .folder
    | _ => return none

/-- What stands at the paths that a command line may name. -/
def filesNamed (line : List String) : IO Files := do
  let paths := line ++ line.filterMap fun word => (splitValue word).2
  let entries ← paths.filterMapM fun path => do return (← entryAt? path).map (path, ·)
  return ⟨entries⟩

/-- Prints a transcript and adds its records to the log file. -/
def emit (log? : Option IO.FS.Handle) (t : Transcript) : IO Unit := do
  IO.eprint t.errors
  IO.print t.output
  (← IO.getStdout).flush
  if let some log := log? then
    log.putStr t.log
    log.flush

/-- The turns of a dialogue, as `Session.turns` takes them, about the lines of standard input. The
lines are those already read. -/
partial def dialogue (session : Session) (log? : Option IO.FS.Handle) :
    List String → IO Ending
  | [] => do
    let text ← (← IO.getStdin).getLine
    if text.isEmpty then
      let (said, ending) := Session.farewell
      emit log? said
      return ending
    else dialogue session log? (Text.lines text)
  | line :: rest => do
    let (said, ending?) := session.turn (← stampNow) line
    emit log? said
    match ending? with
    | some ending => return ending
    | none => dialogue session log? rest

/-- What `Progress.finish` does, on standard input. -/
def Progress.perform (log? : Option IO.FS.Handle) : Progress → IO Ending
  | .ended ending => return ending
  | .awaiting session => do
    emit log? session.prompt
    dialogue session log? []

end SolidGeometry.CommandLine

open SolidGeometry CommandLine in
def main (line : List String) : IO UInt32 := do
  let begun := start (← filesNamed line) (← stampNow) line
  let log? ← begun.logFile?.mapM fun path => IO.FS.Handle.mk path .write
  emit log? begun.said
  let ending ← begun.progress.perform log?
  if let .broken cause := ending then IO.eprintln cause.message
  return UInt32.ofNat ending.code
