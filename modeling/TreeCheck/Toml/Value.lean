import TreeCheck.Decimal.Double

/-!
# TOML values

The data a TOML document holds. Tables keep their entries in the order of the document. Integers are
the signed 64-bit ones, and dates and times are kept as written: nothing in this library computes
with them. An array remembers how it was written.
-/

set_option autoImplicit false

namespace TreeCheck.Toml

inductive ArrayForm
  /-- Items between brackets. -/
  | listed
  /-- Tables under headers of their own. -/
  | headed
deriving DecidableEq, Repr

inductive Value
  | string (text : String)
  | integer (value : Int64)
  | float (value : Double)
  | boolean (value : Bool)
  /-- A date, a time or both, as written. -/
  | datetime (written : String)
  | array (form : ArrayForm) (items : List Value)
  /-- A table, with each key once. -/
  | table (entries : List (String × Value))

/-- The entries of a table, in the order of the document. -/
abbrev Table := List (String × Value)

end TreeCheck.Toml
