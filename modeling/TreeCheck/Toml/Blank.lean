/-!
# Blanks, line ends and comments

What may stand between the parts of a TOML document. A line ends with a line feed, alone or after a
carriage return; a carriage return on its own is no line end. Comments run to the end of their line.
-/

set_option autoImplicit false

namespace TreeCheck.Toml

/-- A reader takes what it reads off the front of the text and hands on the rest. -/
abbrev Reader (α : Type) := List Char → Option (α × List Char)

def isBlank (char : Char) : Bool :=
  char == ' ' || char == '\t'

/-- A character that may stand in comments and strings as it is: no control character but the tab.
-/
def isPlain (char : Char) : Bool :=
  char == '\t' || (decide (0x20 ≤ char.toNat) && char.toNat != 0x7f)

def skipBlanks (text : List Char) : List Char :=
  text.dropWhile isBlank

/-- The rest of the text after the end of a line. The end of the text ends a line too. -/
def lineEnd : List Char → Option (List Char)
  | [] => some []
  | '\n' :: rest => some rest
  | '\r' :: '\n' :: rest => some rest
  | _ => none

/-- The rest of the text after a line on which only blanks and a comment are left. -/
def lineRest (text : List Char) : Option (List Char) :=
  match skipBlanks text with
  | '#' :: comment => lineEnd (comment.dropWhile isPlain)
  | rest => lineEnd rest

def dropLineEnd : List Char → List Char
  | '\n' :: rest => rest
  | '\r' :: '\n' :: rest => rest
  | text => text

/-- Drops blanks, line ends and comments, as between the items of an array. `inComment` says that
the text starts within a comment. -/
def skipLines (inComment : Bool) : List Char → List Char
  | [] => []
  | '\n' :: rest => skipLines false rest
  | '\r' :: '\n' :: rest => skipLines false rest
  | char :: rest =>
    if inComment then
      if isPlain char then skipLines true rest else char :: rest
    else if isBlank char then skipLines false rest
    else if char == '#' then skipLines true rest
    else char :: rest

end TreeCheck.Toml
