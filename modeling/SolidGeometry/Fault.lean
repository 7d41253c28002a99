namespace SolidGeometry

/-- Why an arithmetic step has no result. -/
inductive ArithmeticFault where
  /-- An integer beyond the range of a double met a float. -/
  | integerRange
  /-- A fraction beyond the range of a double met a float. -/
  | fractionRange
  /-- A float was divided by a number that is zero as a float. -/
  | zeroDivisor
  deriving DecidableEq, Repr

def ArithmeticFault.message : ArithmeticFault → String
  | .integerRange => "int too large to convert to float"
  | .fractionRange => "integer division result too large for a float"
  | .zeroDivisor => "float division by zero"

/-- Why the decimal digits of an integer are refused. -/
inductive DigitFault where
  /-- A text of so many digits is not read as an integer. -/
  | reading (count : Nat)
  /-- The integer has too many digits to be written. -/
  | writing
  deriving DecidableEq, Repr

/-- The greatest number of decimal digits that an integer is read from or written with. -/
def digitLimit : Nat := 4300

def DigitFault.message : DigitFault → String
  | .reading count =>
    s!"Exceeds the limit ({digitLimit} digits) for integer string conversion: value has {count} " ++
      "digits; use sys.set_int_max_str_digits() to increase the limit"
  | .writing =>
    s!"Exceeds the limit ({digitLimit} digits) for integer string conversion; " ++
      "use sys.set_int_max_str_digits() to increase the limit"

/-- Why a step refuses the value that it is given. -/
inductive Refusal where
  | digits (cause : DigitFault)
  /-- A number outside the domain of a function of real numbers. -/
  | domain
  /-- A search among candidates of which none fits. -/
  | exhausted
  /-- A number that has too many digits when it is rounded to decimal places. -/
  | precision
  deriving DecidableEq, Repr

def Refusal.message : Refusal → String
  | .digits cause => cause.message
  | .domain => "math domain error"
  | .exhausted => ""
  | .precision => "[<class 'decimal.InvalidOperation'>]"

/-- Why a computation has no result. -/
inductive Fault where
  | arithmetic (cause : ArithmeticFault)
  | refused (cause : Refusal)
  /-- The operation does not apply to operands of these kinds. -/
  | noMethod (operation : String) (kinds : List String)
  deriving DecidableEq, Repr

/-- The former name of `Fault.refused`, kept for programs outside the library that tell the causes
of a fault apart by it. -/
@[match_pattern, deprecated Fault.refused (since := "2026-11-19")]
abbrev Fault.digits (cause : Refusal) : Fault := .refused cause

def Fault.message : Fault → String
  | .arithmetic cause => cause.message
  | .refused cause => cause.message
  | .noMethod operation kinds =>
    s!"No method found for {operation} with input types: " ++ ", ".intercalate kinds

/-- A computation that either has a result or ends in a fault. -/
abbrev Checked := Except Fault

end SolidGeometry
