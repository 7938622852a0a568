import TreeCheck.Decimal.Double
import TreeCheck.Toml.Digit

/-!
# Numbers

TOML integers and floats, read from a whole word of the document. Single underscores may stand
between digits. A decimal number has no leading zero, except in its fraction and its exponent.
-/

set_option autoImplicit false

namespace TreeCheck.Toml

/-- One or more digits, with single underscores between them. -/
def digits? (base : Nat) : List Char → Option (List Nat)
  | [] => none
  | [char] => do return [← digit? base char]
  | char :: '_' :: rest => do return (← digit? base char) :: (← digits? base rest)
  | char :: rest => do return (← digit? base char) :: (← digits? base rest)

/-- Decimal digits without a leading zero. -/
def wholeDigits? (word : List Char) : Option (List Nat) :=
  (digits? 10 word).filter fun digits => digits.length == 1 || digits.head? != some 0

def splitSign : List Char → Bool × List Char
  | '+' :: rest => (false, rest)
  | '-' :: rest => (true, rest)
  | word => (false, word)

def signed (negative : Bool) (magnitude : Nat) : Int :=
  if negative then -(magnitude : Int) else magnitude

def int64? (value : Int) : Option Int64 :=
  if Int64.minValue.toInt ≤ value ∧ value ≤ Int64.maxValue.toInt then some (Int64.ofInt value)
  else none

/-- An integer: decimal with an optional sign, or without a sign in base sixteen, eight or two. -/
def integer? : List Char → Option Int64
  | '0' :: 'x' :: word => do int64? (ofDigits 16 (← digits? 16 word))
  | '0' :: 'o' :: word => do int64? (ofDigits 8 (← digits? 8 word))
  | '0' :: 'b' :: word => do int64? (ofDigits 2 (← digits? 2 word))
  | word => do
    let (negative, magnitude) := splitSign word
    int64? (signed negative (ofDigits 10 (← wholeDigits? magnitude)))

def fraction? : List Char → Option (List Nat)
  | [] => some []
  | _ :: word => digits? 10 word

def exponent? : List Char → Option Int
  | [] => some 0
  | _ :: word => do
    let (negative, magnitude) := splitSign word
    return signed negative (ofDigits 10 (← digits? 10 magnitude))

def decimal? (negative : Bool) (word : List Char) : Option Double := do
  let isMark (char : Char) : Bool := char == 'e' || char == 'E'
  let mantissa := word.takeWhile (!isMark ·)
  let marked := word.dropWhile (!isMark ·)
  let pointed := mantissa.dropWhile (· != '.')
  guard (!marked.isEmpty || !pointed.isEmpty)
  let whole ← wholeDigits? (mantissa.takeWhile (· != '.'))
  let fraction ← fraction? pointed
  let exponent ← exponent? marked
  return .ofDecimal negative (ofDigits 10 (whole ++ fraction)) (exponent - fraction.length)

/-- A float. A positive number too large for the format is refused; a negative one reads as negative
infinity. -/
def float? (word : List Char) : Option Double :=
  let (negative, magnitude) := splitSign word
  match magnitude with
  | ['i', 'n', 'f'] => some (.infinite negative)
  | ['n', 'a', 'n'] => some .nan
  | _ => (decimal? negative magnitude).filter (· != .infinite false)

end TreeCheck.Toml
