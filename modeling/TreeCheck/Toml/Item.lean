import TreeCheck.Toml.Draft
import TreeCheck.Toml.Quotation
import TreeCheck.Toml.Scalar

/-!
# Keys and values

Readers for the keys and values of a TOML document. A key has at most seventy-nine parts, and a
value stands within at most seventy-nine arrays and tables; these limits also bound the recursion.
-/

set_option autoImplicit false

namespace TreeCheck.Toml

/-! ## Keys -/

def isKeyChar (char : Char) : Bool :=
  char.isAlphanum || char == '-' || char == '_'

def keyPart : Reader String
  | '"' :: rest => do
    let (key, rest) ← basicString rest
    return (String.ofList key, rest)
  | '\'' :: rest => do
    let (key, rest) ← literalString rest
    return (String.ofList key, rest)
  | text =>
    let key := text.takeWhile isKeyChar
    if key.isEmpty then none else some (String.ofList key, text.dropWhile isKeyChar)

/-- Reads a key of at most `limit` parts: the parts before the last one, and the last one. Blanks
may surround every part. -/
def keyParts : Nat → Reader (List String × String)
  | 0, _ => none
  | limit + 1, text => do
    let (part, rest) ← keyPart (skipBlanks text)
    match skipBlanks rest with
    | '.' :: rest => do
      let ((path, last), rest) ← keyParts limit rest
      return ((part :: path, last), rest)
    | rest => return (([], part), rest)

/-- The greatest number of parts of a key, and of arrays and tables around a value. -/
def maxDepth : Nat := 79

def key : Reader (List String × String) :=
  keyParts maxDepth

/-! ## Values -/

/-- Reads the items of an array after its opening bracket. Every item takes at least one character,
so the length of the text bounds their number. -/
def arrayItems (item : Reader Value) : Nat → Reader (List Value)
  | 0, _ => none
  | limit + 1, text =>
    match skipLines false text with
    | ']' :: rest => some ([], rest)
    | text => do
      let (value, rest) ← item text
      match skipLines false rest with
      | ',' :: rest => do
        let (values, rest) ← arrayItems item limit rest
        return (value :: values, rest)
      | ']' :: rest => return ([value], rest)
      | _ => none

def pair (item : Reader Value) : Reader (List String × String × Value) := fun text => do
  let ((path, last), rest) ← key text
  match rest with
  | '=' :: rest => do
    let (value, rest) ← item (skipBlanks rest)
    return ((path, last, value), rest)
  | _ => none

/-- Reads the entries of a table written between braces, after the first of them is known to exist.
-/
def inlineEntries (item : Reader Value) : Nat → Reader (List (List String × String × Value))
  | 0, _ => none
  | limit + 1, text => do
    let (entry, rest) ← pair item text
    match skipBlanks rest with
    | ',' :: rest => do
      let (entries, rest) ← inlineEntries item limit rest
      return (entry :: entries, rest)
    | '}' :: rest => return ([entry], rest)
    | _ => none

/-- Reads a table written between braces, after the opening one. It ends on the line it starts on,
and no comma follows its last entry. -/
def inlineTable (item : Reader Value) : Reader Value := fun text =>
  match skipBlanks text with
  | '}' :: rest => some (.table [], rest)
  | text => do
    let (entries, rest) ← inlineEntries item text.length text
    return (.table (← Table.ofPairs? entries), rest)

/-- Reads a value that may hold `depth` more levels of arrays and tables. -/
def value : Nat → Reader Value
  | 0, text => valueWith none text
  | depth + 1, text => valueWith (some (value depth)) text
where
  /-- Reads a value whose items, if it may have any, are read by `inner`. -/
  valueWith (inner : Option (Reader Value)) : Reader Value
    | '[' :: rest => do
      let (values, rest) ← arrayItems (← inner) rest.length rest
      return (.array .listed values, rest)
    | '{' :: rest => do inlineTable (← inner) rest
    | '"' :: rest => do
      let (text, rest) ← quotation ('"' :: rest)
      return (.string (String.ofList text), rest)
    | '\'' :: rest => do
      let (text, rest) ← quotation ('\'' :: rest)
      return (.string (String.ofList text), rest)
    | text => scalar text

end TreeCheck.Toml
