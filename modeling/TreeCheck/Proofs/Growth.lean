import Mathlib.Algebra.Group.Defs
import TreeCheck.Proofs.Steps

/-!
# What a walk gains

A walk never forgets. Whatever a step does, and whether or not it succeeds, the table, the counters
and the log afterwards are those before with something added. A `Growth` is what has been added.
-/

set_option autoImplicit false

namespace TreeCheck

/-! ## Adding counters -/

namespace Metrics

instance : Zero Metrics := ⟨{}⟩

instance : Add Metrics := ⟨fun left right =>
  { vars := left.vars + right.vars
    whiles := left.whiles + right.whiles
    ifs := left.ifs + right.ifs
    enumValues := left.enumValues + right.enumValues
    operators := left.operators + right.operators }⟩

@[ext] theorem ext {left right : Metrics} (vars : left.vars = right.vars)
    (whiles : left.whiles = right.whiles) (ifs : left.ifs = right.ifs)
    (enumValues : left.enumValues = right.enumValues)
    (operators : left.operators = right.operators) : left = right := by
  cases left
  cases right
  simp only at vars whiles ifs enumValues operators
  subst vars whiles ifs enumValues operators
  rfl

section

variable (left right : Metrics)

@[simp] theorem zero_vars : (0 : Metrics).vars = 0 := rfl
@[simp] theorem zero_whiles : (0 : Metrics).whiles = 0 := rfl
@[simp] theorem zero_ifs : (0 : Metrics).ifs = 0 := rfl
@[simp] theorem zero_enumValues : (0 : Metrics).enumValues = 0 := rfl
@[simp] theorem zero_operators : (0 : Metrics).operators = 0 := rfl
@[simp] theorem add_vars : (left + right).vars = left.vars + right.vars := rfl
@[simp] theorem add_whiles : (left + right).whiles = left.whiles + right.whiles := rfl
@[simp] theorem add_ifs : (left + right).ifs = left.ifs + right.ifs := rfl
@[simp] theorem add_enumValues :
    (left + right).enumValues = left.enumValues + right.enumValues := rfl
@[simp] theorem add_operators : (left + right).operators = left.operators + right.operators := rfl

end

instance : AddCommMonoid Metrics where
  add_assoc _ _ _ := by ext <;> simp [Nat.add_assoc]
  zero_add _ := by ext <;> simp
  add_zero _ := by ext <;> simp
  add_comm _ _ := by ext <;> simp [Nat.add_comm]
  nsmul := nsmulRec

theorem addWhile_eq (metrics : Metrics) : metrics.addWhile = metrics + { whiles := 1 } := rfl

theorem addIf_eq (metrics : Metrics) : metrics.addIf = metrics + { ifs := 1 } := rfl

theorem addEnumValues_eq (metrics : Metrics) (values : Nat) :
    metrics.addEnumValues values = metrics + { enumValues := values } := rfl

theorem addOperators_eq (metrics : Metrics) (operators : Nat) :
    metrics.addOperators operators = metrics + { operators := operators } := rfl

/-- What the rules count has grown from `before` to `after`. The variables are left out: no rule
counts them, the table tells their number at the end. -/
structure Increase (before counts after : Metrics) : Prop where
  whiles : after.whiles = before.whiles + counts.whiles
  ifs : after.ifs = before.ifs + counts.ifs
  enumValues : after.enumValues = before.enumValues + counts.enumValues
  operators : after.operators = before.operators + counts.operators

theorem increase_add (before counts : Metrics) : before.Increase counts (before + counts) :=
  ⟨rfl, rfl, rfl, rfl⟩

end Metrics

/-! ## Growth -/

/-- What is added to a walk: bindings, counts and events. -/
structure Growth where
  bindings : List (String × Ty) := []
  counts : Metrics := 0
  events : List Event := []

namespace Growth

instance : Zero Growth := ⟨{}⟩

instance : Add Growth := ⟨fun earlier later =>
  { bindings := earlier.bindings ++ later.bindings
    counts := earlier.counts + later.counts
    events := earlier.events ++ later.events }⟩

section

variable (earlier later : Growth)

@[simp] theorem zero_bindings : (0 : Growth).bindings = [] := rfl
@[simp] theorem zero_counts : (0 : Growth).counts = 0 := rfl
@[simp] theorem zero_events : (0 : Growth).events = [] := rfl
@[simp] theorem add_bindings :
    (earlier + later).bindings = earlier.bindings ++ later.bindings := rfl
@[simp] theorem add_counts : (earlier + later).counts = earlier.counts + later.counts := rfl
@[simp] theorem add_events : (earlier + later).events = earlier.events ++ later.events := rfl

end

end Growth

/-- `after` is `before` with something added. -/
structure Walk.Grows (before : Walk) (growth : Growth) (after : Walk) : Prop where
  symbols : before.session.symbols.Extends growth.bindings after.session.symbols
  metrics : after.session.metrics = before.session.metrics + growth.counts
  log : after.log = before.log ++ growth.events

namespace Walk

theorem Grows.refl (walk : Walk) : walk.Grows 0 walk where
  symbols := .refl _
  metrics := (add_zero _).symm
  log := (List.append_nil _).symm

theorem Grows.trans {before middle after : Walk} {earlier later : Growth}
    (first : before.Grows earlier middle) (second : middle.Grows later after) :
    before.Grows (earlier + later) after where
  symbols := first.symbols.trans second.symbols
  metrics := by rw [second.metrics, first.metrics, add_assoc, Growth.add_counts]
  log := by rw [second.log, first.log, List.append_assoc, Growth.add_events]

/-- What a walk has gained is determined by where it starts and where it ends. -/
theorem Grows.unique {before after : Walk} {growth other : Growth}
    (grows : before.Grows growth after) (grown : before.Grows other after) : growth = other := by
  have bindings := List.append_cancel_left (grows.symbols.symm.trans grown.symbols)
  have events := List.append_cancel_left (grows.log.symm.trans grown.log)
  have counts : growth.counts = other.counts := by
    have same := grows.metrics.symm.trans grown.metrics
    simp only [Metrics.ext_iff, Metrics.add_vars, Metrics.add_whiles, Metrics.add_ifs,
      Metrics.add_enumValues, Metrics.add_operators, Nat.add_left_cancel_iff] at same
    exact Metrics.ext_iff.mpr same
  cases growth
  cases other
  simp_all

theorem Grows.increase {before after : Walk} {growth : Growth} (grows : before.Grows growth after) :
    before.session.metrics.Increase growth.counts after.session.metrics := by
  rw [grows.metrics]
  exact Metrics.increase_add _ _

end Walk

theorem Session.increase_counted {before counts : Metrics} {session : Session}
    (increase : before.Increase counts session.metrics) :
    before.Increase counts session.counted.metrics :=
  ⟨increase.whiles, increase.ifs, increase.enumValues, increase.operators⟩

namespace Check

theorem emit_grows (event : Event) (walk : Walk) :
    walk.Grows { events := [event] } (emit event walk).2 where
  symbols := .refl _
  metrics := (add_zero _).symm
  log := rfl

theorem count_grows {update : Metrics → Metrics} {counts : Metrics}
    (adds : ∀ metrics, update metrics = metrics + counts) (walk : Walk) :
    walk.Grows { counts } (count update walk).2 where
  symbols := .refl _
  metrics := adds _
  log := (List.append_nil _).symm

theorem declared_grows {walk : Walk} {symbols : SymbolTable} {name : String} {type : Ty}
    (extended : walk.session.symbols.Extends [(name, type)] symbols) :
    walk.Grows { bindings := [(name, type)] }
      { walk with session := { walk.session with symbols } } where
  symbols := extended
  metrics := (add_zero _).symm
  log := (List.append_nil _).symm

end Check

end TreeCheck
