import TreeCheck.Toml.Blank
import TreeCheck.Toml.Moment
import TreeCheck.Toml.Number
import TreeCheck.Toml.Value

/-!
# Unquoted values

Booleans, numbers, dates and times are written as one word. A date and a time may also be two words
with a single space between them.
-/

set_option autoImplicit false

namespace TreeCheck.Toml

def isWordChar (char : Char) : Bool :=
  char.isAlphanum || char == '+' || char == '-' || char == '_' || char == '.' || char == ':'

def splitWord (text : List Char) : List Char × List Char :=
  (text.takeWhile isWordChar, text.dropWhile isWordChar)

def wordValue? (word : List Char) : Option Value :=
  if word = ['t', 'r', 'u', 'e'] then some (.boolean true)
  else if word = ['f', 'a', 'l', 's', 'e'] then some (.boolean false)
  else if isMoment word then some (.datetime (String.ofList word))
  else match integer? word with
    | some value => some (.integer value)
    | none => (float? word).map .float

def scalar : Reader Value := fun text =>
  let (word, rest) := splitWord text
  match rest with
  | ' ' :: next :: _ =>
    if isDate word && next.isDigit then
      let (time, after) := splitWord rest.tail
      if isOffsetTime time then some (.datetime (String.ofList (word ++ ' ' :: time)), after)
      else none
    else (wordValue? word).map fun value => (value, rest)
  | _ => (wordValue? word).map fun value => (value, rest)

end TreeCheck.Toml
