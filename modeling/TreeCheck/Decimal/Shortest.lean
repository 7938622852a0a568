import TreeCheck.Decimal.Double

/-!
# The shortest decimal of a double

A finite double is written with the fewest digits that read back as the same double; among the
decimals of that length the nearest one is taken, and of two equally near the greater one. The text
is positional, whatever the size of the number, and always has a decimal point.
-/

set_option autoImplicit false

namespace TreeCheck.Double

/-- Orders `left * 2 ^ binary` against `right * 10 ^ decimal`. -/
def compareScaled (left : Nat) (binary : Int) (right : Nat) (decimal : Int) : Ordering :=
  compare (left * Nat.pow 2 binary.toNat * Nat.pow 10 (-decimal).toNat)
    (right * Nat.pow 10 decimal.toNat * Nat.pow 2 (-binary).toNat)

/-- A decimal number `coefficient * 10 ^ scale`. -/
structure Digits where
  coefficient : Nat
  scale : Int
deriving DecidableEq, Repr

/-- The least `power` with `mantissa * 2 ^ exponent < 10 ^ power`. -/
def magnitude (mantissa : Nat) (exponent : Int) : Int :=
  let estimate := Int.fdiv ((mantissa.log2 + exponent) * 30103) 100000 - 1
  let above (power : Int) : Bool := compareScaled mantissa exponent 1 power == .lt
  ([estimate, estimate + 1, estimate + 2].find? above).getD (estimate + 3)

/-- The decimals with `count` digits that read back as `mantissa * 2 ^ exponent`, nearest first. The
bounds of the numbers that read back are kept in quarters of the last binary place: they are closer
below a power of two, and belong to the number itself when its mantissa is even. -/
def digitsOf? (mantissa : Nat) (exponent : Int) (count : Nat) : Option Digits :=
  let scale := magnitude mantissa exponent - count
  let quarter := exponent - 2
  let belowGap := if mantissa = Nat.pow 2 52 ∧ minExponent < exponent then 1 else 2
  let inside (order : Ordering) : Bool := order == .lt || (order == .eq && mantissa % 2 == 0)
  let low := (4 * mantissa * Nat.pow 2 quarter.toNat * Nat.pow 10 (-scale).toNat) /
    (Nat.pow 10 scale.toNat * Nat.pow 2 (-quarter).toNat)
  let lowFits := inside (compareScaled (4 * mantissa - belowGap) quarter low scale)
  let highFits := inside (compareScaled (4 * mantissa + 2) quarter (low + 1) scale).swap
  let lowNearer := compareScaled (8 * mantissa) quarter (2 * low + 1) scale == .lt
  if lowFits && (lowNearer || !highFits) then some ⟨low, scale⟩
  else if highFits then some ⟨low + 1, scale⟩
  else none

/-- The shortest decimal that reads back as `mantissa * 2 ^ exponent`; seventeen digits always do.
-/
def shortest (mantissa : Nat) (exponent : Int) : Digits :=
  ((List.range 17).findSome? fun more => digitsOf? mantissa exponent (more + 1)).getD ⟨0, 0⟩

/-- Zeros at the end of a list of digits, dropped as long as the scale is negative. -/
def Digits.trim (digits : Digits) : Digits :=
  let zeros := ((Nat.toDigits 10 digits.coefficient).reverse.takeWhile (· == '0')).length
  let dropped := min zeros (-digits.scale).toNat
  ⟨digits.coefficient / Nat.pow 10 dropped, digits.scale + dropped⟩

def Digits.text (digits : Digits) : String :=
  let ⟨coefficient, scale⟩ := digits.trim
  let written := Nat.toDigits 10 coefficient
  if 0 ≤ scale then
    String.ofList (written ++ List.replicate scale.toNat '0' ++ ['.', '0'])
  else
    let places := (-scale).toNat
    let padded := List.replicate (places + 1 - written.length) '0' ++ written
    let whole := padded.length - places
    String.ofList (padded.take whole ++ '.' :: padded.drop whole)

def text : Double → String
  | .nan => "NaN"
  | .infinite negative => if negative then "-inf" else "inf"
  | .finite negative mantissa exponent =>
    let digits := if mantissa = 0 then "0.0" else (shortest mantissa exponent).text
    if negative then "-" ++ digits else digits

end TreeCheck.Double
