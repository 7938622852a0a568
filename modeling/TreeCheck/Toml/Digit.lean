/-!
# Digits

The digits of numbers, escapes and dates. A digit has a value in every base above that value, up to
base sixteen; letters count in either case.
-/

set_option autoImplicit false

namespace TreeCheck.Toml

def digit? (base : Nat) (char : Char) : Option Nat :=
  let value? :=
    if '0' ≤ char ∧ char ≤ '9' then some (char.toNat - '0'.toNat)
    else if 'a' ≤ char ∧ char ≤ 'f' then some (char.toNat - 'a'.toNat + 10)
    else if 'A' ≤ char ∧ char ≤ 'F' then some (char.toNat - 'A'.toNat + 10)
    else none
  value?.filter (· < base)

/-- The number with these digits, the first digit being the highest. -/
def ofDigits (base : Nat) (digits : List Nat) : Nat :=
  digits.foldl (fun number digit => number * base + digit) 0

def numeral? (base : Nat) (text : List Char) : Option Nat :=
  (text.mapM (digit? base)).map (ofDigits base)

end TreeCheck.Toml
