import TreeCheck.Decimal.Shortest
import TreeCheck.Text.Quoted
import TreeCheck.Toml.Document

/-!
# The shape of a document

A document that is valid TOML may still not hold what a reader of trees or configurations expects.
`ShapeError` lists what can be wrong and `ShapeError.message` gives its wording. A few readers that
several formats share follow.
-/

set_option autoImplicit false

namespace TreeCheck.Toml

inductive ShapeError
  | unknownField (name : String) (known : List String)
  | missingField (name : String)
  | unknownVariant (name : String) (known : List String)
  | wrongType (found : Value) (expected : String)
  /-- A record written as an array has too few items. -/
  | wrongLength (length : Nat) (expected : String)
  /-- A variant is neither a string nor a table. -/
  | notVariant
  /-- A variant written as a table has no entry. -/
  | noVariant
  /-- A variant written as a table has several entries. -/
  | manyVariants
  /-- The table of a variant, or its array between brackets, is not empty. -/
  | variantNotEmpty
  /-- There are tables under the headers of a variant. -/
  | variantHasTables
  /-- The content of a variant is neither a table nor an array. -/
  | variantContent (found : Value)
  /-- A value has none of the types allowed for `expected`. -/
  | noAlternative (expected : String)

/-- The words for a value of the wrong type. A date counts as a table. -/
def Value.described : Value → String
  | .string text => "string " ++ Text.quote text
  | .integer value => "integer `" ++ toString value.toInt ++ "`"
  | .float value => "floating point `" ++ value.text ++ "`"
  | .boolean value => "boolean `" ++ toString value ++ "`"
  | .array _ _ => "sequence"
  | .datetime _ | .table _ => "map"

def Value.typeName : Value → String
  | .string _ => "string"
  | .integer _ => "integer"
  | .float _ => "float"
  | .boolean _ => "boolean"
  | .datetime _ => "datetime"
  | .array _ _ => "array"
  | .table _ => "table"

def alternatives (names : List String) : String :=
  let quoted := names.map fun name => "`" ++ name ++ "`"
  match quoted with
  | [] => ""
  | [name] => name
  | [first, second] => first ++ " or " ++ second
  | _ => "one of " ++ ", ".intercalate quoted

def ShapeError.message : ShapeError → String
  | .unknownField name known => "unknown field `" ++ name ++ "`, expected " ++ alternatives known
  | .missingField name => "missing field `" ++ name ++ "`"
  | .unknownVariant name known =>
    "unknown variant `" ++ name ++ "`, expected " ++ alternatives known
  | .wrongType found expected => "invalid type: " ++ found.described ++ ", expected " ++ expected
  | .wrongLength length expected =>
    "invalid length " ++ toString length ++ ", expected " ++ expected
  | .notVariant => "wanted string or table"
  | .noVariant => "wanted exactly 1 element, found 0 elements"
  | .manyVariants => "wanted exactly 1 element, more than 1 element"
  | .variantNotEmpty => "expected empty table"
  | .variantHasTables => "expected empty array"
  | .variantContent found => "expected table, found " ++ found.typeName
  | .noAlternative expected => "data did not match any variant of untagged enum " ++ expected

inductive Error
  | syntaxError
  | shape (error : ShapeError)

/-- The wording of an error; errors of syntax are not told apart. -/
def Error.message : Error → String
  | .syntaxError => "not a TOML document"
  | .shape error => error.message

/-! ## Shared readers -/

/-- The key under which a date shows itself when it is read as a table. -/
def datetimeField : String :=
  "$__toml_private_datetime"

def Value.entries? : Value → Option Table
  | .table entries => some entries
  | .datetime written => some [(datetimeField, .string written)]
  | _ => none

/-- Reads a string; `expected` says what the string is for. -/
def Value.asString (expected : String) : Value → Except ShapeError String
  | .string text => .ok text
  | other => .error (.wrongType other expected)

def Value.asStrings (expected : String) : Value → Except ShapeError (List String)
  | .array _ items => items.mapM (Value.asString expected)
  | other => .error (.wrongType other "a sequence")

def load {α : Type} (shape : Table → Except ShapeError α) (source : String) : Except Error α :=
  match parse? source with
  | none => .error .syntaxError
  | some table =>
    match shape table with
    | .ok result => .ok result
    | .error error => .error (.shape error)

end TreeCheck.Toml
