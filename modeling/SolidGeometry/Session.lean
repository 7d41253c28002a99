import SolidGeometry.Expression
import SolidGeometry.Policy
import SolidGeometry.Settings.Basic

namespace SolidGeometry

structure Session where
  settings : Settings
  policy? : Option Policy

/-- The value of an expression as text, and the warnings to show with it. -/
structure Answer where
  text : String
  notes : List String
  deriving DecidableEq, Repr

/-- Why a question has no answer. -/
inductive SessionError where
  | evaluation (cause : EvaluationError)
  /-- The policy takes a warning for an error. -/
  | promoted (w : Warning)
  /-- The value cannot be written. -/
  | rendering (cause : Fault)
  deriving DecidableEq, Repr

def SessionError.message : SessionError → String
  | .evaluation cause => cause.message
  | .promoted w => w.message
  | .rendering cause => cause.message

/-- Whether an error is told to the user as wrong input. All others end the program. -/
def SessionError.isReported : SessionError → Bool
  | .evaluation (.unreadable _) => true
  | .evaluation (.noMethod _ _) => true
  | .evaluation (.arithmetic _) => true
  | .evaluation (.refused _ _) => false
  | .evaluation (.malformed _) => false
  | .promoted _ => true
  | .rendering _ => false

/-- Evaluates a text. The policy sees the warnings of the whole evaluation, and the value is written
after that. -/
def Session.answer (s : Session) (text : String) : Noted SessionError Answer :=
  let evaluated := (evaluate text).mapError SessionError.evaluation
  evaluated >>= fun value => do
    let notes ← (Policy.apply s.policy? (evaluated.warnings.map .degenerate)).mapError
      SessionError.promoted
    let text ← (value.render s.settings.style).mapError SessionError.rendering
    return ⟨text, notes⟩

/-- The policy of the lists of codes given by a user, none if no list is given. -/
def Policy.ofLists (promoted? suppressed? : Option String) :
    Except UnknownCode (Option Policy) := do
  if promoted? = none ∧ suppressed? = none then return none
  let promoted ← Code.readList (promoted?.getD "")
  let suppressed ← Code.readList (suppressed?.getD "")
  return some ⟨promoted, suppressed⟩

end SolidGeometry
