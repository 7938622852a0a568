import TreeCheck.Toml.Digit

/-!
# Dates and times

Which words are a TOML date, a time of day, or both joined. Only well-formed moments that exist in
the calendar are accepted; a minute may have a sixty-first second.
-/

set_option autoImplicit false

namespace TreeCheck.Toml

def twoDigits? (tens ones : Char) : Option Nat :=
  numeral? 10 [tens, ones]

def isLeapYear (year : Nat) : Bool :=
  year % 4 == 0 && (year % 100 != 0 || year % 400 == 0)

def daysInMonth (year month : Nat) : Nat :=
  if month = 2 then if isLeapYear year then 29 else 28
  else if month ∈ [4, 6, 9, 11] then 30
  else 31

/-- What follows a date at the front of a word. -/
def afterDate? : List Char → Option (List Char)
  | y₁ :: y₂ :: y₃ :: y₄ :: '-' :: m₁ :: m₂ :: '-' :: d₁ :: d₂ :: rest => do
    let year := (← twoDigits? y₁ y₂) * 100 + (← twoDigits? y₃ y₄)
    let month ← twoDigits? m₁ m₂
    let day ← twoDigits? d₁ d₂
    guard (1 ≤ month ∧ month ≤ 12 ∧ 1 ≤ day ∧ day ≤ daysInMonth year month)
    return rest
  | _ => none

def afterFraction? : List Char → Option (List Char)
  | '.' :: word =>
    let rest := word.dropWhile fun char => (digit? 10 char).isSome
    if rest.length < word.length then some rest else none
  | word => some word

def afterTime? : List Char → Option (List Char)
  | h₁ :: h₂ :: ':' :: m₁ :: m₂ :: ':' :: s₁ :: s₂ :: rest => do
    guard ((← twoDigits? h₁ h₂) < 24 ∧ (← twoDigits? m₁ m₂) < 60 ∧ (← twoDigits? s₁ s₂) ≤ 60)
    afterFraction? rest
  | _ => none

/-- Whether a word is an offset from universal time, or empty. -/
def isOffset : List Char → Bool
  | [] | ['Z'] | ['z'] => true
  | [sign, h₁, h₂, ':', m₁, m₂] =>
    (sign == '+' || sign == '-') && (twoDigits? h₁ h₂).any (· < 24) &&
      (twoDigits? m₁ m₂).any (· < 60)
  | _ => false

def isOffsetTime (word : List Char) : Bool :=
  (afterTime? word).any isOffset

def isDate (word : List Char) : Bool :=
  afterDate? word == some []

/-- Whether a word is a date, a time of day, or a date and a time joined by the letter T. -/
def isMoment (word : List Char) : Bool :=
  match afterDate? word with
  | some ('T' :: time) | some ('t' :: time) => isOffsetTime time
  | some rest => rest.isEmpty
  | none => afterTime? word == some []

end TreeCheck.Toml
