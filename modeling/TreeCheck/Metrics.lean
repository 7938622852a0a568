/-!
# Program metrics

Five counters gathered while a program is checked, and the one-line record that reports them.
-/

set_option autoImplicit false

namespace TreeCheck

structure Metrics where
  /-- Declared variables; names of enumerations and of their values do not count. -/
  vars : Nat := 0
  whiles : Nat := 0
  ifs : Nat := 0
  /-- Values over all enumerations. -/
  enumValues : Nat := 0
  /-- Applications of an operator. -/
  operators : Nat := 0
deriving DecidableEq, Repr

namespace Metrics

instance : Inhabited Metrics := ⟨{}⟩

def text (metrics : Metrics) : String :=
  r"{VAR:" ++ toString metrics.vars ++ ", WHILE:" ++ toString metrics.whiles ++
    ", IF:" ++ toString metrics.ifs ++ ", ENUM_VALUES:" ++ toString metrics.enumValues ++
    ", OP:" ++ toString metrics.operators ++ r"}"

/-- The records of several programs, one to a line. -/
def report (records : List Metrics) : String :=
  String.join (records.map fun metrics => metrics.text ++ "\n")

def addWhile (metrics : Metrics) : Metrics :=
  { metrics with whiles := metrics.whiles + 1 }

def addIf (metrics : Metrics) : Metrics :=
  { metrics with ifs := metrics.ifs + 1 }

def addEnumValues (metrics : Metrics) (count : Nat) : Metrics :=
  { metrics with enumValues := metrics.enumValues + count }

def addOperators (metrics : Metrics) (count : Nat) : Metrics :=
  { metrics with operators := metrics.operators + count }

end Metrics

end TreeCheck
