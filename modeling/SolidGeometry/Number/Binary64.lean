import SolidGeometry.Number.Rounding

namespace SolidGeometry.Number

/-- What a double stands for: `± mantissa * 2 ^ exponent`, an infinity, or no number. -/
inductive Binary64 where
  | finite (negative : Bool) (mantissa : Nat) (exponent : Int)
  | infinite (negative : Bool)
  | nan
  deriving DecidableEq, Repr

/-- The exponent of the least positive double. -/
def leastExponent : Int := -1074

/-- The bits of infinity: all smaller patterns without the sign bit stand for finite doubles. -/
def infinityBits : Nat := 2047 * Nat.pow 2 52

def Binary64.ofFloat (x : Float) : Binary64 :=
  let bits := x.toBits.toNat
  let negative := decide (Nat.pow 2 63 ≤ bits)
  let biased : Nat := bits / Nat.pow 2 52 % Nat.pow 2 11
  let fraction := bits % Nat.pow 2 52
  if biased = 2047 then
    if fraction = 0 then .infinite negative else .nan
  else if biased = 0 then .finite negative fraction leastExponent
  else .finite negative (fraction + Nat.pow 2 52) ((biased : Int) - 1075)

/-- The exact value `± mantissa * 2 ^ exponent`. -/
def scaledByTwo (negative : Bool) (mantissa : Nat) (exponent : Int) : Rat :=
  let magnitude := mkRat (mantissa * Nat.pow 2 exponent.toNat) (Nat.pow 2 (-exponent).toNat)
  if negative then -magnitude else magnitude

/-- The greatest `e` with `2 ^ e ≤ num / den`, for positive numbers. -/
def binaryExponent (num den : Nat) : Int :=
  let guess : Int := (Nat.log2 num : Int) - (Nat.log2 den : Int)
  if num * Nat.pow 2 (-guess).toNat < den * Nat.pow 2 guess.toNat then guess - 1 else guess

/-- The bits of the double nearest to `num / den`; from `infinityBits` on there is none. A mantissa
that is rounded up to the next power of two carries into the exponent. -/
def nearestBits (num den : Nat) : Nat :=
  if num = 0 then 0
  else
    let unit := max (binaryExponent num den - 52) leastExponent
    (unit - leastExponent).toNat * Nat.pow 2 52 +
      roundHalfEven (num * Nat.pow 2 (-unit).toNat) (den * Nat.pow 2 unit.toNat)

/-- The double with the given sign and magnitude bits. -/
def signed (negative : Bool) (magnitude : Nat) : Float :=
  Float.ofBits (UInt64.ofNat (if negative then magnitude + Nat.pow 2 63 else magnitude))

/-- The double nearest to an exact number, unless it is beyond the range of doubles. -/
def nearest? (q : Rat) : Option Float :=
  let bits := nearestBits q.num.natAbs q.den
  if bits < infinityBits then some (signed (decide (q.num < 0)) bits) else none

/-- The double nearest to `± num / den`, an infinity beyond the range of doubles. Zero keeps its
sign. -/
def nearestDecimal (negative : Bool) (num den : Nat) : Float :=
  signed negative (min (nearestBits num den) infinityBits)

def notANumber : Float := signed false (infinityBits + Nat.pow 2 51)

def isNaN (x : Float) : Bool :=
  Binary64.ofFloat x == .nan

end SolidGeometry.Number
