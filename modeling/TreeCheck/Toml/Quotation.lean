import TreeCheck.Toml.Blank
import TreeCheck.Toml.Digit

/-!
# Quoted strings

The four forms of a TOML string: basic strings with escapes and literal strings without, each on one
line or between three quotes over several lines. A reader of this module starts after the opening
quotes and ends after the closing ones.

Between three quotes, one or two quotes in a row are text. A run of three to five quotes ends the
string, and those of the run beyond three are its last characters.
-/

set_option autoImplicit false

namespace TreeCheck.Toml

/-! ## Escapes -/

def codePoint? (digits : List Char) : Option Char := do
  let number ← numeral? 16 digits
  if valid : number.isValidChar then some (Char.ofNatAux number valid) else none

/-- The character that a backslash and one more character stand for. -/
def shortEscape? (char : Char) : Option Char :=
  match char with
  | 'b' => some '\x08'
  | 't' => some '\t'
  | 'n' => some '\n'
  | 'f' => some '\x0c'
  | 'r' => some '\r'
  | '"' => some '"'
  | '\\' => some '\\'
  | _ => none

def withChar (char : Char) (read : Option (List Char × List Char)) :
    Option (List Char × List Char) :=
  read.map fun (text, rest) => (char :: text, rest)

/-! ## Strings on one line -/

def basicString : Reader (List Char)
  | [] => none
  | '"' :: rest => some ([], rest)
  | '\\' :: 'u' :: a :: b :: c :: d :: rest => do
    withChar (← codePoint? [a, b, c, d]) (basicString rest)
  | '\\' :: 'U' :: a :: b :: c :: d :: e :: f :: g :: h :: rest => do
    withChar (← codePoint? [a, b, c, d, e, f, g, h]) (basicString rest)
  | '\\' :: char :: rest => do withChar (← shortEscape? char) (basicString rest)
  | char :: rest => if isPlain char && char != '\\' then withChar char (basicString rest) else none

def literalString : Reader (List Char)
  | [] => none
  | '\'' :: rest => some ([], rest)
  | char :: rest => if isPlain char then withChar char (literalString rest) else none

/-! ## Strings over several lines -/

/-- Where the reader of a basic string over several lines stands. A backslash at the end of a line
drops the line end and all blanks and line ends after it. -/
inductive Continuation
  /-- Within the text. -/
  | none
  /-- After such a backslash, before the line end that must follow. -/
  | pending
  /-- After that line end, dropping blanks and line ends. -/
  | dropping
deriving DecidableEq, Repr

def basicLines : Continuation → Reader (List Char)
  | _, [] => .none
  | .pending, '\n' :: rest => basicLines .dropping rest
  | .pending, '\r' :: '\n' :: rest => basicLines .dropping rest
  | .pending, char :: rest => if isBlank char then basicLines .pending rest else .none
  | .dropping, '\n' :: rest => basicLines .dropping rest
  | .dropping, '\r' :: '\n' :: rest => basicLines .dropping rest
  | .dropping, ' ' :: rest => basicLines .dropping rest
  | .dropping, '\t' :: rest => basicLines .dropping rest
  | _, '"' :: '"' :: '"' :: '"' :: '"' :: rest => some (['"', '"'], rest)
  | _, '"' :: '"' :: '"' :: '"' :: rest => some (['"'], rest)
  | _, '"' :: '"' :: '"' :: rest => some ([], rest)
  | _, '\n' :: rest => withChar '\n' (basicLines .none rest)
  | _, '\r' :: '\n' :: rest => withChar '\n' (basicLines .none rest)
  | _, '\\' :: '\n' :: rest => basicLines .dropping rest
  | _, '\\' :: '\r' :: '\n' :: rest => basicLines .dropping rest
  | _, '\\' :: ' ' :: rest => basicLines .pending rest
  | _, '\\' :: '\t' :: rest => basicLines .pending rest
  | _, '\\' :: 'u' :: a :: b :: c :: d :: rest => do
    withChar (← codePoint? [a, b, c, d]) (basicLines .none rest)
  | _, '\\' :: 'U' :: a :: b :: c :: d :: e :: f :: g :: h :: rest => do
    withChar (← codePoint? [a, b, c, d, e, f, g, h]) (basicLines .none rest)
  | _, '\\' :: char :: rest => do withChar (← shortEscape? char) (basicLines .none rest)
  | _, char :: rest =>
    if isPlain char && char != '\\' then withChar char (basicLines .none rest) else .none

def literalLines : Reader (List Char)
  | [] => none
  | '\'' :: '\'' :: '\'' :: '\'' :: '\'' :: rest => some (['\'', '\''], rest)
  | '\'' :: '\'' :: '\'' :: '\'' :: rest => some (['\''], rest)
  | '\'' :: '\'' :: '\'' :: rest => some ([], rest)
  | '\n' :: rest => withChar '\n' (literalLines rest)
  | '\r' :: '\n' :: rest => withChar '\n' (literalLines rest)
  | char :: rest => if isPlain char then withChar char (literalLines rest) else none

/-! ## All forms -/

/-- Reads a string in any form, opening quotes included. A line end right after three opening quotes
is dropped. -/
def quotation : Reader (List Char)
  | '"' :: '"' :: '"' :: rest => basicLines .none (dropLineEnd rest)
  | '"' :: rest => basicString rest
  | '\'' :: '\'' :: '\'' :: rest => literalLines (dropLineEnd rest)
  | '\'' :: rest => literalString rest
  | _ => none

end TreeCheck.Toml
