import TreeCheck.Toml.Item

/-!
# TOML documents

A document is a list of lines: headers, and keys with their values. Reading it takes two steps: the
text becomes a list of statements, and the statements build the table of the document.
-/

set_option autoImplicit false

namespace TreeCheck.Toml

/-! ## Statements -/

inductive Statement
  /-- The header `[path.last]`. -/
  | table (path : List String) (last : String)
  /-- The header `[[path.last]]`. -/
  | pushTable (path : List String) (last : String)
  /-- The line `path.last = value`. -/
  | define (path : List String) (last : String) (value : Value)

def statement : Reader Statement
  | '[' :: '[' :: text => do
    let ((path, last), rest) ← key text
    match rest with
    | ']' :: ']' :: rest => return (.pushTable path last, ← lineRest rest)
    | _ => none
  | '[' :: text => do
    let ((path, last), rest) ← key text
    match rest with
    | ']' :: rest => return (.table path last, ← lineRest rest)
    | _ => none
  | text => do
    let ((path, last, value), rest) ← pair (value maxDepth) text
    return (.define path last value, ← lineRest rest)

/-- Reads the statements of a document. Every line takes at least one character, so a limit above
the length of the text is never met. -/
def statements : Nat → List Char → Option (List Statement)
  | 0, _ => none
  | limit + 1, text =>
    match skipBlanks text with
    | [] => some []
    | '#' :: comment => do statements limit (← lineEnd (comment.dropWhile isPlain))
    | '\n' :: rest => statements limit rest
    | '\r' :: rest => do statements limit (← lineEnd ('\r' :: rest))
    | text => do
      let (first, rest) ← statement text
      return first :: (← statements limit rest)

/-! ## Building the table -/

/-- A document under construction: its root, and the path of the table opened last. -/
structure Builder where
  root : Draft := []
  current : List String := []

def Builder.add (builder : Builder) : Statement → Option Builder
  | .table path last => do
    let root ← Draft.alter .implicit (fun _ => Draft.openTable last) path .opened builder.root
    return ⟨root, path ++ [last]⟩
  | .pushTable path last => do
    let root ← Draft.alter .implicit (fun _ => Draft.pushTable last) path .opened builder.root
    return ⟨root, path ++ [last]⟩
  | .define path last value => do
    let root ←
      Draft.alter .implicit (Draft.define path last value) builder.current .opened builder.root
    return ⟨root, builder.current⟩

def build (statements : List Statement) : Option Table := do
  let builder ← statements.foldlM Builder.add {}
  return builder.root.finish

def dropMark : List Char → List Char
  | '\ufeff' :: text => text
  | text => text

def parse? (source : String) : Option Table := do
  let text := dropMark source.toList
  build (← statements (text.length + 1) text)

end TreeCheck.Toml
