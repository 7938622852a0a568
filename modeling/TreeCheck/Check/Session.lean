import TreeCheck.Check.Event
import TreeCheck.Metrics
import TreeCheck.Symbols

/-!
# The state of a walk

A `Session` is what outlives the check of one program: the names declared so far and the counters. A
`Walk` adds the log of the current run. `Check` is the type of the steps of a walk. A step that
fails still hands on the walk it has reached, so whatever was declared, counted and logged before
the fault can be inspected afterwards.
-/

set_option autoImplicit false

namespace TreeCheck

structure Session where
  symbols : SymbolTable := .empty
  metrics : Metrics := {}
deriving DecidableEq

instance : Inhabited Session := ⟨{}⟩

/-- A session together with the events of the current run, oldest first. -/
structure Walk where
  session : Session
  log : List Event := []
deriving DecidableEq

/-- A step of a walk: its result or the fault that stops it, and the walk it leaves. -/
def Check (α : Type) : Type :=
  Walk → Except Fault α × Walk

namespace Check

instance : Monad Check where
  pure value := fun walk => (.ok value, walk)
  bind step next := fun walk =>
    match step walk with
    | (.ok value, after) => next value after
    | (.error fault, after) => (.error fault, after)

def fail {α : Type} (fault : Fault) : Check α :=
  fun walk => (.error fault, walk)

def reject {α : Type} (broken : Violation) : Check α :=
  fail (.violation broken)

def malformed {α : Type} (shape : Malformed) : Check α :=
  fail (.malformed shape)

def emit (event : Event) : Check Unit :=
  fun walk => (.ok (), { walk with log := walk.log ++ [event] })

def current : Check Session :=
  fun walk => (.ok walk.session, walk)

def count (update : Metrics → Metrics) : Check Unit :=
  fun walk =>
    (.ok (), { walk with session := { walk.session with metrics := update walk.session.metrics } })

def lookup (name : String) : Check (Option Ty) :=
  fun walk => (.ok (walk.session.symbols.lookup name), walk)

def declare (name : String) (type : Ty) : Check Unit :=
  fun walk =>
    match walk.session.symbols.declare name type with
    | .ok symbols => (.ok (), { walk with session := { walk.session with symbols } })
    | .error broken => (.error (.violation broken), walk)

def resolve (name : String) : Check Ty := do
  match ← lookup name with
  | some type => return type
  | none => reject (.undefinedIdentifier name)

@[simp] theorem pure_apply {α : Type} (value : α) (walk : Walk) :
    (pure value : Check α) walk = (.ok value, walk) := rfl

theorem bind_apply {α β : Type} (step : Check α) (next : α → Check β) (walk : Walk) :
    (step >>= next) walk =
      match step walk with
      | (.ok value, after) => next value after
      | (.error fault, after) => (.error fault, after) := rfl

theorem bind_of_ok {α β : Type} {step : Check α} {walk after : Walk} {value : α}
    (next : α → Check β) (done : step walk = (.ok value, after)) :
    (step >>= next) walk = next value after := by
  rw [bind_apply, done]

theorem bind_of_error {α β : Type} {step : Check α} {walk after : Walk} {fault : Fault}
    (next : α → Check β) (stopped : step walk = (.error fault, after)) :
    (step >>= next) walk = (.error fault, after) := by
  rw [bind_apply, stopped]

@[simp] theorem fail_apply {α : Type} (fault : Fault) (walk : Walk) :
    (fail fault : Check α) walk = (.error fault, walk) := rfl

@[simp] theorem lookup_apply (name : String) (walk : Walk) :
    lookup name walk = (.ok (walk.session.symbols.lookup name), walk) := rfl

private theorem id_map_check {α : Type} (step : Check α) : id <$> step = step := by
  funext walk
  show (match step walk with
    | (.ok value, after) => ((.ok (id value), after) : Except Fault α × Walk)
    | (.error fault, after) => (.error fault, after)) = step walk
  rcases step walk with ⟨_ | _, _⟩ <;> rfl

private theorem bind_assoc_check {α β γ : Type} (step : Check α) (next : α → Check β)
    (last : β → Check γ) : step >>= next >>= last = step >>= fun value => next value >>= last := by
  funext walk
  simp only [bind_apply]
  rcases step walk with ⟨_ | _, _⟩ <;> rfl

instance : LawfulMonad Check :=
  LawfulMonad.mk' Check id_map_check (fun _ _ => rfl) bind_assoc_check

end Check

end TreeCheck
