import TreeCheck.Toml.Value

/-!
# Tables under construction

A TOML document builds its tables piece by piece: a header `[a.b]` opens a table, a header `[[a.b]]`
adds a table to an array of tables, and a key `a.b` reaches into a table of its own. Every table may
be defined only once, so a draft remembers how each of its tables came about.
-/

set_option autoImplicit false

namespace TreeCheck.Toml

inductive Origin
  /-- Passed through by a header; a later header may still open it. -/
  | implicit
  /-- Passed through by a dotted key. -/
  | dotted
  /-- Opened by a header, or the root. -/
  | opened
deriving DecidableEq, Repr

inductive Item
  /-- A finished value: arrays and tables written in one place admit no additions. -/
  | value (value : Value)
  | table (origin : Origin) (entries : List (String × Item))
  /-- An array of tables: the table it got last, and the earlier ones from late to early. -/
  | tables (last : List (String × Item)) (earlier : List (List (String × Item)))

/-- A table under construction, its entries in the order in which they were added. -/
abbrev Draft := List (String × Item)

namespace Draft

def put (draft : Draft) (key : String) (item : Item) : Draft :=
  draft.map fun entry => if entry.1 = key then (key, item) else entry

def erase (draft : Draft) (key : String) : Draft :=
  draft.filter fun entry => entry.1 != key

def add (draft : Draft) (key : String) (item : Item) : Draft :=
  draft ++ [(key, item)]

/-- Changes the table that a path leads to. Tables missing on the way are made, with origin `via`;
an array of tables leads to its last table. A dotted key cannot reach into a table that a header
opened. The change is told how its table came about. -/
def alter (via : Origin) (change : Origin → Draft → Option Draft) :
    List String → Origin → Draft → Option Draft
  | [], origin, draft => change origin draft
  | key :: path, _, draft =>
    match draft.lookup key with
    | none => do return draft.add key (.table via (← alter via change path via []))
    | some (.value _) => none
    | some (.table origin inner) =>
      if via = .dotted ∧ origin = .opened then none
      else do return draft.put key (.table origin (← alter via change path origin inner))
    | some (.tables last earlier) => do
      return draft.put key (.tables (← alter via change path .opened last) earlier)

/-- Opens a table. A table that headers have only passed through so far moves to the end. -/
def openTable (key : String) (draft : Draft) : Option Draft :=
  match draft.lookup key with
  | none => some (draft.add key (.table .opened []))
  | some (.table .implicit inner) => some ((draft.erase key).add key (.table .opened inner))
  | some _ => none

def pushTable (key : String) (draft : Draft) : Option Draft :=
  match draft.lookup key with
  | none => some (draft.add key (.tables [] []))
  | some (.tables last earlier) => some (draft.put key (.tables [] (last :: earlier)))
  | some _ => none

def addValue (key : String) (value : Value) (draft : Draft) : Option Draft :=
  if (draft.lookup key).isSome then none else some (draft.add key (.value value))

/-- Adds the value of a dotted key. The table that takes the value must have been made by dotted
keys itself, unless the key has one part only. -/
def define (path : List String) (key : String) (value : Value) (origin : Origin) (draft : Draft) :
    Option Draft :=
  alter .dotted
    (fun origin inner =>
      if !path.isEmpty && origin != .dotted then none else inner.addValue key value)
    path origin draft

end Draft

mutual

def Item.finish : Item → Value
  | .value value => value
  | .table _ entries => .table (finishEntries entries)
  | .tables last earlier => .array .headed (finishTables earlier [.table (finishEntries last)])

def finishEntries : List (String × Item) → Table
  | [] => []
  | (key, item) :: rest => (key, item.finish) :: finishEntries rest

/-- The tables of an array of tables, given from late to early, in front of the later ones. -/
def finishTables : List (List (String × Item)) → List Value → List Value
  | [], later => later
  | entries :: earlier, later => finishTables earlier (.table (finishEntries entries) :: later)

end

def Draft.finish (draft : Draft) : Table :=
  finishEntries draft

/-- The table written by keys and values alone, as between braces. -/
def Table.ofPairs? (pairs : List (List String × String × Value)) : Option Table :=
  (pairs.foldlM (fun draft (path, key, value) => Draft.define path key value .opened draft) []).map
    Draft.finish

end TreeCheck.Toml
