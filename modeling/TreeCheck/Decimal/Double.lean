/-!
# Double-precision numbers

Numbers of the double-precision binary format as exact data: a sign, a mantissa below `2 ^ 53` and
an exponent of two between `-1074` and `971`. A decimal number is read as the double nearest to it;
of two doubles equally near, the one with the even mantissa.
-/

set_option autoImplicit false

namespace TreeCheck

inductive Double
  | nan
  | infinite (negative : Bool)
  /-- The number `mantissa * 2 ^ exponent`, with its sign; zero has a sign too. -/
  | finite (negative : Bool) (mantissa : Nat) (exponent : Int)
deriving DecidableEq, Repr

namespace Double

/-- The quotient rounded to the nearest natural number, a half to the even neighbour. -/
def divNearest (numerator denominator : Nat) : Nat :=
  let quotient := numerator / denominator
  let twice := 2 * (numerator % denominator)
  if twice < denominator then quotient
  else if denominator < twice then quotient + 1
  else if quotient % 2 = 0 then quotient
  else quotient + 1

def minExponent : Int := -1074

def maxExponent : Int := 971

/-- The double nearest to a positive fraction. -/
def ofRatio (negative : Bool) (numerator denominator : Nat) : Double :=
  let quotient (round : Nat → Nat → Nat) (exponent : Int) : Nat :=
    round (numerator * Nat.pow 2 (-exponent).toNat) (denominator * Nat.pow 2 exponent.toNat)
  let least := max minExponent ((numerator.log2 : Int) - denominator.log2 - 53)
  let exponent := if Nat.pow 2 53 ≤ quotient (· / ·) least then least + 1 else least
  let rounded := quotient divNearest exponent
  let (mantissa, exponent) :=
    if rounded = Nat.pow 2 53 then (Nat.pow 2 52, exponent + 1) else (rounded, exponent)
  if maxExponent < exponent then .infinite negative else .finite negative mantissa exponent

def digitCount (number : Nat) : Nat :=
  (Nat.toDigits 10 number).length

/-- The double nearest to `coefficient * 10 ^ scale`. Numbers far outside the range of the format
are settled by their length, so that no huge power is computed. -/
def ofDecimal (negative : Bool) (coefficient : Nat) (scale : Int) : Double :=
  let magnitude := digitCount coefficient + scale
  if coefficient = 0 ∨ magnitude < -330 then .finite negative 0 minExponent
  else if 310 < magnitude then .infinite negative
  else ofRatio negative (coefficient * Nat.pow 10 scale.toNat) (Nat.pow 10 (-scale).toNat)

end Double

end TreeCheck
