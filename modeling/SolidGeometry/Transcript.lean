import SolidGeometry.Noted

namespace SolidGeometry

/-- The texts on standard output, on standard error and in the log file. -/
structure Transcript where
  output : String
  errors : String
  log : String
  deriving DecidableEq, Repr

namespace Transcript

def empty : Transcript := ⟨"", "", ""⟩

instance : Append Transcript :=
  ⟨fun a b => ⟨a.output ++ b.output, a.errors ++ b.errors, a.log ++ b.log⟩⟩

def shown (text : String) : Transcript := ⟨text, "", ""⟩

def told (text : String) : Transcript := ⟨"", text, ""⟩

/-- A record in the log, which standard error shows as well. -/
def logged (stamp : String) (record : LogRecord) : Transcript :=
  let line := stamp ++ " - " ++ record.source.label ++ " - DEBUG - " ++ record.message ++ "\n"
  ⟨"", line, line⟩

/-- One transcript behind the other. -/
def join (parts : List Transcript) : Transcript := parts.foldl (· ++ ·) empty

end Transcript

end SolidGeometry
