import SolidGeometry.Number.Binary64

/-! The shortest decimal that reads back as a given double. All reals nearer to the double than to
its neighbours read back as it, the two half-way points too when the mantissa is even. Grids of
decimals are tried from the coarsest one on; the first that has a point among these reals gives the
digits, the nearer of two points, and of two equally near ones the even one. -/
namespace SolidGeometry.Number

/-- A decimal `± digits * 10 ^ exponent`. -/
structure Decimal where
  negative : Bool
  digits : Nat
  exponent : Int
  deriving DecidableEq, Repr

def decimalLength (n : Nat) : Nat := (Nat.toDigits 10 n).length

/-- The greatest `e` with `10 ^ e ≤ num / den`, for positive numbers. -/
def decimalExponent (num den : Nat) : Int :=
  if den ≤ num then (decimalLength (num / den) : Int) - 1
  else -(decimalLength ((den - 1) / num) : Int)

/-- The reals that read back as one double, in quarters of its unit `2 ^ exponent`. -/
structure Interval where
  low : Nat
  centre : Nat
  high : Nat
  closed : Bool

/-- Below a power of two the doubles lie twice as close as above it. -/
def Interval.of (mantissa : Nat) (exponent : Int) : Interval where
  low := 4 * mantissa - (if mantissa = Nat.pow 2 52 ∧ leastExponent < exponent then 1 else 2)
  centre := 4 * mantissa
  high := 4 * mantissa + 2
  closed := mantissa % 2 = 0

/-- The point `c * 10 ^ grid` of a decimal grid that reads back as the double, if there is one. -/
def gridPoint? (mantissa : Nat) (exponent grid : Int) : Option Nat :=
  let interval := Interval.of mantissa exponent
  let num := Nat.pow 2 (exponent - 2).toNat * Nat.pow 10 (-grid).toNat
  let den := Nat.pow 2 (2 - exponent).toNat * Nat.pow 10 grid.toNat
  let holds (c : Nat) : Bool :=
    if interval.closed then interval.low * num ≤ c * den && c * den ≤ interval.high * num
    else interval.low * num < c * den && c * den < interval.high * num
  let centre := interval.centre * num
  let c := centre / den
  match holds c, holds (c + 1) with
  | true, true =>
    let down := centre - c * den
    let up := (c + 1) * den - centre
    if down < up then some c else if up < down then some (c + 1) else some (c + c % 2)
  | true, false => some c
  | false, true => some (c + 1)
  | false, false => none

/-- The shortest decimal for `mantissa * 2 ^ exponent`; seventeen digits always suffice. -/
def shortest (negative : Bool) (mantissa : Nat) (exponent : Int) : Decimal :=
  if mantissa = 0 then ⟨negative, 0, 0⟩
  else
    let top := decimalExponent (mantissa * Nat.pow 2 exponent.toNat) (Nat.pow 2 (-exponent).toNat)
    let grids := (List.range 18).map fun (k : Nat) => top + 1 - (k : Int)
    match grids.findSome? fun grid => (gridPoint? mantissa exponent grid).map (·, grid) with
    | some (digits, grid) => ⟨negative, digits, grid⟩
    | none => ⟨negative, 0, 0⟩

end SolidGeometry.Number
