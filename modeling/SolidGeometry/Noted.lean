import SolidGeometry.Fault

/-! Computations that leave notes. Warnings and log records are kept in the order in which they are
issued, also when the computation ends in an error. -/
namespace SolidGeometry

/-- The code of a warning, as users name it. -/
structure Code where
  name : String
  deriving DecidableEq, Repr

namespace Code

/-- Something was divided by zero. -/
def division : Code := ⟨"W01"⟩

/-- An operand has no direction. -/
def operand : Code := ⟨"W02"⟩

/-- The codes that the calculator issues. -/
def known : List Code := [division, operand]

end Code

structure Warning where
  code : Code
  detail : String
  deriving DecidableEq, Repr

def Warning.message (w : Warning) : String :=
  "[" ++ w.code.name ++ "] " ++ w.detail

/-- The part of the calculator that writes a log record. -/
inductive LogSource where
  | calculator
  | reader
  | operands
  | methods
  deriving DecidableEq, Repr

def LogSource.label : LogSource → String
  | .calculator => "space_vectors"
  | .reader => "space_vectors.parser"
  | .operands => "space_vectors.transform"
  | .methods => "space_vectors.engine"

/-- A record for the log. All records are of the lowest level. -/
structure LogRecord where
  source : LogSource
  message : String
  deriving DecidableEq, Repr

/-- What a computation leaves beside its result. -/
inductive Event where
  | warning (w : Warning)
  | log (record : LogRecord)
  deriving DecidableEq, Repr

def Event.warning? : Event → Option Warning
  | .warning w => some w
  | .log _ => none

def Event.log? : Event → Option LogRecord
  | .warning _ => none
  | .log record => some record

/-- A result or an error, and the events on the way to it. -/
structure Noted (ε α : Type) where
  events : List Event
  result : Except ε α

namespace Noted

variable {ε ε' α β : Type}

def bind (m : Noted ε α) (f : α → Noted ε β) : Noted ε β :=
  match m.result with
  | .ok a => ⟨m.events ++ (f a).events, (f a).result⟩
  | .error e => ⟨m.events, .error e⟩

instance : Monad (Noted ε) where
  pure a := ⟨[], .ok a⟩
  bind := bind

instance : MonadLift (Except ε) (Noted ε) := ⟨fun r => ⟨[], r⟩⟩

def emit (e : Event) : Noted ε Unit := ⟨[e], .ok ()⟩

def warn (code : Code) (detail : String) : Noted ε Unit := emit (.warning ⟨code, detail⟩)

def log (source : LogSource) (message : String) : Noted ε Unit := emit (.log ⟨source, message⟩)

def fail (e : ε) : Noted ε α := ⟨[], .error e⟩

/-- The same computation with its errors told in other words. -/
def mapError (f : ε → ε') (m : Noted ε α) : Noted ε' α := ⟨m.events, m.result.mapError f⟩

def warnings (m : Noted ε α) : List Warning := m.events.filterMap Event.warning?

def records (m : Noted ε α) : List LogRecord := m.events.filterMap Event.log?

@[simp] theorem pure_events (a : α) : (pure a : Noted ε α).events = [] := rfl

@[simp] theorem pure_result (a : α) : (pure a : Noted ε α).result = .ok a := rfl

theorem bind_ok {m : Noted ε α} {a : α} (f : α → Noted ε β) (done : m.result = .ok a) :
    m >>= f = ⟨m.events ++ (f a).events, (f a).result⟩ := by
  change bind m f = _
  simp [bind, done]

theorem bind_error {m : Noted ε α} {e : ε} (f : α → Noted ε β) (failed : m.result = .error e) :
    m >>= f = ⟨m.events, .error e⟩ := by
  change bind m f = _
  simp [bind, failed]

instance : LawfulMonad (Noted ε) := LawfulMonad.mk' (Noted ε)
  (fun m => by
    change bind m _ = m
    obtain ⟨events, result⟩ := m
    cases result <;> simp [bind])
  (fun a f => by
    change bind ⟨[], .ok a⟩ f = f a
    simp [bind])
  (fun m f g => by
    change bind (bind m f) g = bind m fun a => bind (f a) g
    obtain ⟨events, result⟩ := m
    cases result with
    | error e => rfl
    | ok a =>
      simp only [bind]
      cases (f a).result <;> simp)

end Noted

/-- A computation on numbers and elements that leaves notes. -/
abbrev Computation := Noted Fault

end SolidGeometry
