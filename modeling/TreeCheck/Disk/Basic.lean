/-!
# A disk as a value

A disk is a tree of directories with files at its leaves. A location is the list of names that leads
from the root to a file or directory; the root itself is always a directory. `Disk.get?` is the map
from locations to what they hold.
-/

set_option autoImplicit false

namespace TreeCheck

/-- The names that lead from the root to a file or directory. -/
abbrev Location := List String

inductive Content
  | text (text : String)
  /-- Bytes that are no UTF-8 text. -/
  | binary (bytes : List UInt8)
deriving DecidableEq, Repr

inductive Entry where
  | file (content : Content)
  | directory (entries : List (String × Entry))

/-- The entries of a directory, each name once. -/
abbrev Entries := List (String × Entry)

namespace Entries

/-- Binds a name to an entry, over the one it may be bound to. -/
def bind (entries : Entries) (name : String) (entry : Entry) : Entries :=
  (name, entry) :: entries.filter fun other => other.1 != name

def get? : Entries → Location → Option Entry
  | entries, [] => some (.directory entries)
  | entries, name :: rest =>
    match entries.lookup name, rest with
    | some (.directory below), _ => get? below rest
    | some (.file content), [] => some (.file content)
    | _, _ => none

/-- Puts an entry at a location below a directory. Nothing changes when the directory that should
take it does not exist. -/
def put (entry : Entry) : Location → Entries → Entries
  | [], entries => entries
  | [name], entries => entries.bind name entry
  | name :: rest, entries =>
    match entries.lookup name with
    | some (.directory below) => entries.bind name (.directory (put entry rest below))
    | _ => entries

@[simp] theorem get?_nil (entries : Entries) : entries.get? [] = some (.directory entries) := rfl

theorem lookup_bind_self (entries : Entries) (name : String) (entry : Entry) :
    (entries.bind name entry).lookup name = some entry := by
  simp [bind]

theorem lookup_bind_of_ne {entries : Entries} {name other : String} (entry : Entry)
    (differs : other ≠ name) : (entries.bind name entry).lookup other = entries.lookup other := by
  have first : (other == name) = false := by simpa using differs
  rw [bind, List.lookup_cons, first]
  induction entries with
  | nil => rfl
  | cons head rest ih =>
    obtain ⟨key, bound⟩ := head
    by_cases same : key = name
    · subst same
      simpa [List.lookup_cons, first] using ih
    · by_cases found : other = key
      · subst found
        simp [same]
      · have next : (other == key) = false := by simpa using found
        simpa [same, next, List.lookup_cons] using ih

theorem get?_put_self (entry : Entry) (name : String) {location : Location}
    {entries below : Entries} (holder : entries.get? location = some (.directory below)) :
    (put entry (location ++ [name]) entries).get? (location ++ [name]) = some entry := by
  induction location generalizing entries with
  | nil => cases entry <;> simp [put, get?, lookup_bind_self]
  | cons first rest ih =>
    obtain ⟨next, more, shape⟩ : ∃ next more, rest ++ [name] = next :: more := by
      cases rest <;> exact ⟨_, _, rfl⟩
    cases found : entries.lookup first with
    | none => simp [get?, found] at holder
    | some bound =>
      cases bound with
      | file content => cases rest <;> simp [get?, found] at holder
      | directory inner =>
        have step := @ih inner (by simpa [get?, found] using holder)
        rw [shape] at step
        simpa [shape, put, found, get?, lookup_bind_self] using step

end Entries

structure Disk where
  /-- The entries of the root. -/
  entries : Entries := []

namespace Disk

def get? (disk : Disk) (location : Location) : Option Entry :=
  disk.entries.get? location

def put (disk : Disk) (location : Location) (entry : Entry) : Disk :=
  ⟨disk.entries.put entry location⟩

end Disk

end TreeCheck
