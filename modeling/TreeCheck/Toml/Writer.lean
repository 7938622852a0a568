import TreeCheck.Toml.Blank

/-!
# Writing TOML

How strings and arrays of strings are written. A string takes the plainest of the four forms that
can hold it; the reader of quotations reads every form back.
-/

set_option autoImplicit false

namespace TreeCheck.Toml

/-! ## Choosing a form -/

inductive Form
  | basic
  | literal
  | basicLines
  | literalLines
deriving DecidableEq, Repr

/-- A control character other than the tab and the line feed; only an escape can express it. -/
def isControl (char : Char) : Bool :=
  !isPlain char && char != '\n'

/-- The length of the longest run of `mark` in a text, when the text follows `current` of them. -/
def longestRun (mark : Char) : Nat → List Char → Nat
  | current, [] => current
  | current, char :: rest =>
    if char = mark then longestRun mark (current + 1) rest
    else max current (longestRun mark 0 rest)

def formOf (text : List Char) : Form :=
  let controls := text.any isControl
  let lines := text.contains '\n'
  if !controls && !lines && !text.contains '\\' && !text.contains '"' then .basic
  else if !controls && !lines && !text.contains '\'' then .literal
  else if !controls && !text.contains '\\' && decide (longestRun '"' 0 text ≤ 2) then .basicLines
  else if !controls && decide (longestRun '\'' 0 text ≤ 2) then .literalLines
  else if lines then .basicLines
  else .basic

/-! ## Escaping -/

def hexChar (digit : Nat) : Char :=
  Char.ofNat (if digit < 10 then '0'.toNat + digit else 'A'.toNat + digit - 10)

/-- The escape of a character by its code point, for code points of at most four digits. -/
def hexEscape (char : Char) : List Char :=
  let point := char.toNat
  ['\\', 'u', hexChar (point / 4096 % 16), hexChar (point / 256 % 16), hexChar (point / 16 % 16),
    hexChar (point % 16)]

/-- The escape of a character that a basic string cannot hold as it is. Line feeds and quotes depend
on the form and are not considered. -/
def escape? (char : Char) : Option (List Char) :=
  if char = '\x08' then some ['\\', 'b']
  else if char = '\t' then some ['\\', 't']
  else if char = '\x0c' then some ['\\', 'f']
  else if char = '\r' then some ['\\', 'r']
  else if char = '\\' then some ['\\', '\\']
  else if isControl char then some (hexEscape char)
  else none

def basicText (text : List Char) : List Char :=
  text.flatMap fun char =>
    if char = '\n' then ['\\', 'n']
    else if char = '"' then ['\\', '"']
    else (escape? char).getD [char]

/-- The text of a basic string over several lines, after `quotes` quotes in a row: the third quote
of a run is escaped, and a run starts anew after an escape. -/
def basicLinesText : Nat → List Char → List Char
  | _, [] => []
  | quotes, char :: rest =>
    if char = '"' then
      if quotes = 2 then '\\' :: '"' :: basicLinesText 0 rest
      else '"' :: basicLinesText (quotes + 1) rest
    else (escape? char).getD [char] ++ basicLinesText 0 rest

/-! ## Strings and arrays -/

/-- Text over several lines starts on a line of its own when it has a line feed at all. -/
def leadingLine (text : List Char) : List Char :=
  if text.contains '\n' then ['\n'] else []

def tripled (quote : Char) : List Char :=
  [quote, quote, quote]

def writeString (text : List Char) : List Char :=
  match formOf text with
  | .basic => '"' :: (basicText text ++ ['"'])
  | .literal => '\'' :: (text ++ ['\''])
  | .basicLines => tripled '"' ++ leadingLine text ++ basicLinesText 0 text ++ tripled '"'
  | .literalLines => tripled '\'' ++ leadingLine text ++ text ++ tripled '\''

def writeItem (text : List Char) : List Char :=
  [' ', ' ', ' ', ' '] ++ writeString text ++ [',', '\n']

/-- An array of strings: up to one item stands on the line of the brackets, more have a line each.
-/
def writeStrings : List (List Char) → List Char
  | [] => ['[', ']']
  | [text] => '[' :: (writeString text ++ [']'])
  | texts => ['[', '\n'] ++ texts.flatMap writeItem ++ [']']

end TreeCheck.Toml
