import SolidGeometry.Fault
import SolidGeometry.Number.Binary64

/-! The numbers of the calculator. Integers and fractions are exact and stay exact under addition,
subtraction and multiplication; a float makes the result a float. Comparison is exact by value,
whatever the kinds of the two numbers. -/
namespace SolidGeometry
open Number

/-- A number. A fraction may be whole and is then still a fraction; `undefined` is the quotient of a
division by zero, which counts as a float that is not a number. -/
inductive Scalar where
  | int (value : Int)
  | ratio (value : Rat)
  | float (value : Float)
  | undefined

/-- A place on the number line with both infinities. -/
inductive Extended where
  | below
  | finite (value : Rat)
  | above
  deriving DecidableEq

def Extended.before : Extended → Extended → Bool
  | .below, .below => false
  | .below, _ => true
  | .finite _, .below => false
  | .finite a, .finite b => decide (a < b)
  | .finite _, .above => true
  | .above, _ => false

namespace Scalar

instance : Inhabited Scalar := ⟨.int 0⟩

instance (n : Nat) : OfNat Scalar n := ⟨.int n⟩

/-- The value of an integer or a fraction. -/
def rational? : Scalar → Option Rat
  | int n => some n
  | ratio q => some q
  | float _ => none
  | undefined => none

/-- An exact number, an integer where that is possible. -/
def ofRat (q : Rat) : Scalar :=
  if q.den = 1 then .int q.num else .ratio q

/-- The place of a number on the line; what is not a number has none. -/
def place? : Scalar → Option Extended
  | int n => some (.finite n)
  | ratio q => some (.finite q)
  | float x =>
    match Binary64.ofFloat x with
    | .finite negative mantissa exponent => some (.finite (scaledByTwo negative mantissa exponent))
    | .infinite true => some .below
    | .infinite false => some .above
    | .nan => none
  | undefined => none

/-- Equality by value. What is not a number equals nothing. -/
def eqv (a b : Scalar) : Bool :=
  match a.place?, b.place? with
  | some p, some q => p == q
  | _, _ => false

/-- Order by value. What is not a number is before and after nothing. -/
def less (a b : Scalar) : Bool :=
  match a.place?, b.place? with
  | some p, some q => p.before q
  | _, _ => false

def isZero (a : Scalar) : Bool := a.eqv 0

def isNaN (a : Scalar) : Bool := a.place?.isNone

/-- The same number in the same place of two data: equal by value, or both left by a division by
zero. -/
def same : Scalar → Scalar → Bool
  | undefined, undefined => true
  | a, b => a.eqv b

def toFloat : Scalar → Checked Float
  | int n => (nearest? n).elim (.error (.arithmetic .integerRange)) .ok
  | ratio q => (nearest? q).elim (.error (.arithmetic .fractionRange)) .ok
  | float x => .ok x
  | undefined => .ok notANumber

/-- Arithmetic that is exact on exact operands and otherwise rounds the exact operand first. -/
def combine (onInt : Int → Int → Int) (onRat : Rat → Rat → Rat) (onFloat : Float → Float → Float) :
    Scalar → Scalar → Checked Scalar
  | int a, int b => .ok (.int (onInt a b))
  | int a, ratio b => .ok (.ratio (onRat a b))
  | ratio a, int b => .ok (.ratio (onRat a b))
  | ratio a, ratio b => .ok (.ratio (onRat a b))
  | a, b => do
    let x ← a.toFloat
    let y ← b.toFloat
    return .float (onFloat x y)

def add : Scalar → Scalar → Checked Scalar := combine (· + ·) (· + ·) (· + ·)

def sub : Scalar → Scalar → Checked Scalar := combine (· - ·) (· - ·) (· - ·)

def mul : Scalar → Scalar → Checked Scalar := combine (· * ·) (· * ·) (· * ·)

def neg : Scalar → Scalar
  | int n => .int (-n)
  | ratio q => .ratio (-q)
  | float x => .float (-x)
  | undefined => .float notANumber

def abs : Scalar → Scalar
  | int n => .int n.natAbs
  | ratio q => .ratio (if q < 0 then -q else q)
  | float x => .float x.abs
  | undefined => .float notANumber

/-- The quotient as a float: the dividend is rounded first, then the divisor. -/
def floatQuotient (a b : Scalar) : Checked Float := do
  let x ← a.toFloat
  let y ← b.toFloat
  if y == 0 then .error (.arithmetic .zeroDivisor) else return x / y

/-- The square root as a float. A number that is below zero as a float has none. -/
def sqrt (a : Scalar) : Checked Float := do
  let x ← a.toFloat
  if x < 0 then .error (.refused .domain) else return x.sqrt

end Scalar

/-- Arithmetic on results: the left operand is computed before the right one. -/
instance : Add (Checked Scalar) := ⟨fun a b => do (← a).add (← b)⟩

instance : Sub (Checked Scalar) := ⟨fun a b => do (← a).sub (← b)⟩

instance : Mul (Checked Scalar) := ⟨fun a b => do (← a).mul (← b)⟩

instance : Coe Scalar (Checked Scalar) := ⟨.ok⟩

end SolidGeometry
