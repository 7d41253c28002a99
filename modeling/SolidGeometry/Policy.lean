import SolidGeometry.Noted
import SolidGeometry.Text.Blank
import SolidGeometry.Text.Quoted

namespace SolidGeometry

/-- A warning as it was recorded: one about a degenerate computation, or one from elsewhere. -/
inductive Recorded where
  | degenerate (w : Warning)
  | foreign (message : String)
  deriving DecidableEq, Repr

/-- What is done with warnings by their codes. Suppression goes before promotion. -/
structure Policy where
  promoted : List Code
  suppressed : List Code
  deriving DecidableEq, Repr

def Policy.showAll : Policy := ⟨[], []⟩

/-- The messages to show behind those already chosen, each once and in the order in which they first
appear, or the first warning that is promoted to an error. -/
def Policy.select (policy : Policy) : List String → List Recorded → Except Warning (List String)
  | shown, [] => .ok shown
  | shown, .foreign _ :: rest => policy.select shown rest
  | shown, .degenerate w :: rest =>
    if w.code ∈ policy.suppressed then policy.select shown rest
    else if w.code ∈ policy.promoted then .error w
    else if w.message ∈ shown then policy.select shown rest
    else policy.select (shown ++ [w.message]) rest

/-- The messages to show for recorded warnings. Without a policy all are shown. -/
def Policy.apply (policy? : Option Policy) (recorded : List Recorded) :
    Except Warning (List String) :=
  (policy?.getD .showAll).select [] recorded

/-- A word in a list of codes that is no known code. -/
structure UnknownCode where
  word : String
  deriving DecidableEq, Repr

def UnknownCode.message (e : UnknownCode) : String :=
  let word := Text.quoted e.word
  let known := ", ".intercalate (Code.known.map fun c => Text.quoted c.name)
  s!"Unknown warning code: {word} (known: [{known}])"

def Code.ofWords : List String → Except UnknownCode (List Code)
  | [] => .ok []
  | word :: words =>
    if ⟨word⟩ ∈ Code.known then do return ⟨word⟩ :: (← Code.ofWords words)
    else .error ⟨word⟩

/-- A list of codes between commas, each known code once and in the order of their names. -/
def Code.readList (raw : String) : Except UnknownCode (List Code) := do
  let words := ((raw.splitOn ",").map Text.strip).filter (· ≠ "")
  let found ← Code.ofWords words
  return Code.known.filter (· ∈ found)

end SolidGeometry
