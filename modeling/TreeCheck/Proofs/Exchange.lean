import TreeCheck.Proofs.Following
import TreeCheck.Proofs.Sequence

/-!
# Exchanging items

The place of an item matters to the items that mention its names, and to no others. Two neighbouring
items neither of which mentions a name that the other declares may change places: each finds the
table the same as far as it looks, and the items after them find the same bindings, if in another
order.
-/

set_option autoImplicit false

namespace TreeCheck

/-! ## Tables with the same bindings -/

namespace SymbolTable

theorem Extends.agreesOn {table after : SymbolTable} {bindings : List (String × Ty)}
    {names : List String} (extended : table.Extends bindings after)
    (apart : ∀ name ∈ bindings.map Prod.fst, name ∉ names) : AgreesOn names table after := by
  intro name mentioned
  have absent : bindings.lookup name = none := by
    refine List.lookup_eq_none_iff.mpr fun binding gained => bne_iff_ne.mpr ?_
    rintro rfl
    exact apart _ (List.mem_map_of_mem gained) mentioned
  rw [extended.lookup_eq, absent, Option.or_none]

private theorem lookup_eq_of_perm {left right : SymbolTable}
    (same : left.entries.Perm right.entries)
    (name : String) : left.lookup name = right.lookup name := by
  refine Option.ext fun type => ?_
  rw [lookup_eq_some_iff, lookup_eq_some_iff, same.mem_iff]

private theorem variableCount_eq_of_perm {left right : SymbolTable}
    (same : left.entries.Perm right.entries) : left.variableCount = right.variableCount :=
  same.countP_eq _

end SymbolTable

/-- The sessions have the same bindings, maybe in another order, and the same counters. -/
structure Session.Reorders (left right : Session) : Prop where
  entries : left.symbols.entries.Perm right.symbols.entries
  metrics : left.metrics = right.metrics

namespace Session.Reorders

theorem refl (session : Session) : session.Reorders session :=
  ⟨.refl _, rfl⟩

theorem trans {left middle right : Session} (first : left.Reorders middle)
    (second : middle.Reorders right) : left.Reorders right :=
  ⟨first.entries.trans second.entries, first.metrics.trans second.metrics⟩

theorem counted {left right : Session} (reordered : left.Reorders right) :
    left.counted.Reorders right.counted where
  entries := reordered.entries
  metrics := by
    rw [Session.counted, Session.counted, reordered.metrics,
      SymbolTable.variableCount_eq_of_perm reordered.entries]

theorem grow {left right leftAfter rightAfter : Walk} {growth : Growth}
    (reordered : left.session.Reorders right.session) (leftGrows : left.Grows growth leftAfter)
    (rightGrows : right.Grows growth rightAfter) :
    leftAfter.session.Reorders rightAfter.session where
  entries := by
    rw [leftGrows.symbols, rightGrows.symbols]
    exact reordered.entries.append_right _
  metrics := by rw [leftGrows.metrics, rightGrows.metrics, reordered.metrics]

private theorem of_grows {walk left right : Walk} {first second : Growth}
    (leftGrows : walk.Grows (first + second) left)
    (rightGrows : walk.Grows (second + first) right) : left.session.Reorders right.session where
  entries := by
    rw [leftGrows.symbols, rightGrows.symbols, Growth.add_bindings, Growth.add_bindings]
    exact List.perm_append_comm.append_left _
  metrics := by
    rw [leftGrows.metrics, rightGrows.metrics, Growth.add_counts, Growth.add_counts,
      add_comm first.counts]

end Session.Reorders

/-! ## Simulation up to the order of bindings -/

namespace Check

/-- Where the step succeeds, the other succeeds as well and reaches the same session, up to the
order of bindings. -/
def SimulatedBy {α : Type} (step other : Check α) : Prop :=
  ∀ left right : Walk, left.session.Reorders right.session →
    ∀ value reached, step left = (.ok value, reached) →
      ∃ arrived, other right = (.ok value, arrived) ∧ reached.session.Reorders arrived.session

theorem SimulatedBy.bind {α β : Type} {step other : Check α} {next nextOther : α → Check β}
    (simulated : step.SimulatedBy other)
    (continued : ∀ value, (next value).SimulatedBy (nextOther value)) :
    (step >>= next).SimulatedBy (other >>= nextOther) := by
  intro left right reordered value reached done
  obtain ⟨result, middle, run, rest⟩ := bind_eq_ok_iff.mp done
  obtain ⟨crossing, otherRun, again⟩ := simulated left right reordered result middle run
  obtain ⟨arrived, otherRest, ended⟩ :=
    continued result middle crossing again value reached rest
  exact ⟨arrived, bind_eq_ok_iff.mpr ⟨result, crossing, otherRun, otherRest⟩, ended⟩

theorem LocalTo.simulatedBy {α : Type} {names : List String} {step : Check α}
    (located : step.LocalTo names) : step.SimulatedBy step := by
  intro left right reordered value reached done
  obtain ⟨growth, leftGrows, rightGrows, same⟩ := located left right
    fun name _ => SymbolTable.lookup_eq_of_perm reordered.entries name
  rw [done] at leftGrows same
  exact ⟨(step right).2, Prod.ext same.symm rfl, reordered.grow leftGrows rightGrows⟩

private theorem simulatedBy_items (nodes : List Node) : (items nodes).SimulatedBy (items nodes) :=
  (localTo_items_names nodes).simulatedBy

end Check

/-! ## Exchanging two items -/

/-- The names that the walk of a tree declares. -/
def Node.binds (node : Node) : List String :=
  (node.walk.flatMap declares).map Prod.fst

/-- Neither tree mentions a name that the walk of the other declares. A declaration that no walk
reaches binds nothing and may be of any name. -/
structure Node.Independent (left right : Node) : Prop where
  fromLeft : ∀ name ∈ left.binds, name ∉ right.names
  fromRight : ∀ name ∈ right.binds, name ∉ left.names

theorem Node.Independent.symm {left right : Node} (independent : left.Independent right) :
    right.Independent left :=
  ⟨independent.fromRight, independent.fromLeft⟩

namespace Check

private theorem visit_agreesOn {node : Node} {names : List String}
    (apart : ∀ name ∈ node.binds, name ∉ names) (walk : Walk) :
    walk.session.symbols.AgreesOn names (visit node walk).2.session.symbols := by
  obtain ⟨growth, rest, grows, parts, -⟩ := follows_visit node walk
  refine grows.symbols.agreesOn fun name gained => apart name ?_
  have declared : growth.script.declared ++ rest.declared = node.walk.flatMap Node.declares := by
    rw [← Script.add_declared, parts, Script.ofNodes_declared]
  have names : growth.script.declared.map Prod.fst = growth.bindings.map Prod.fst := by
    rw [Growth.script, List.map_map]
    rfl
  rw [Node.binds, ← declared, List.map_append, names]
  exact List.mem_append_left _ gained

/-- Each of two independent trees is walked alike before the other and after it. -/
theorem visit_exchange {left right : Node} (independent : left.Independent right) (walk : Walk) :
    (visit right (visit left walk).2).1 = (visit right walk).1 ∧
    (visit left (visit right walk).2).1 = (visit left walk).1 ∧
    (visit right (visit left walk).2).2.session.Reorders
      (visit left (visit right walk).2).2.session := by
  have leftLocal : (visit left).LocalTo left.names := localTo_visit fun _ => id
  have rightLocal : (visit right).LocalTo right.names := localTo_visit fun _ => id
  obtain ⟨first, leftFirst, leftSecond, leftSame⟩ :=
    leftLocal walk _ (visit_agreesOn independent.fromRight walk)
  obtain ⟨second, rightFirst, rightSecond, rightSame⟩ :=
    rightLocal walk _ (visit_agreesOn independent.fromLeft walk)
  exact ⟨rightSame.symm, leftSame.symm,
    .of_grows (leftFirst.trans rightSecond) (rightFirst.trans leftSecond)⟩

private theorem items_pair_eq_ok_iff {first second : Node} {walk reached : Walk} :
    items [first, second] walk = (.ok (), reached) ↔
      (∃ type, (visit first walk).1 = .ok type) ∧
      (∃ type, (visit second (visit first walk).2).1 = .ok type) ∧
      (visit second (visit first walk).2).2 = reached := by
  rw [items, bind_eq_ok_iff]
  constructor
  · rintro ⟨type, middle, firstRun, rest⟩
    rw [items, bind_eq_ok_iff] at rest
    obtain ⟨typeAfter, last, secondRun, ended⟩ := rest
    cases ended
    rw [firstRun, secondRun]
    exact ⟨⟨type, rfl⟩, ⟨typeAfter, rfl⟩, rfl⟩
  · rintro ⟨⟨type, firstDone⟩, ⟨typeAfter, secondDone⟩, rfl⟩
    refine ⟨type, _, Prod.ext firstDone rfl, ?_⟩
    rw [items, bind_eq_ok_iff]
    exact ⟨typeAfter, _, Prod.ext secondDone rfl, rfl⟩

private theorem simulatedBy_exchange {left right : Node} (independent : left.Independent right) :
    (items [left, right]).SimulatedBy (items [right, left]) := by
  intro walk other reordered value reached done
  obtain ⟨rightSame, leftSame, exchanged⟩ := visit_exchange independent walk
  obtain ⟨⟨leftType, leftDone⟩, ⟨rightType, rightDone⟩, rfl⟩ := items_pair_eq_ok_iff.mp done
  have crossed : items [right, left] walk = (.ok (), (visit left (visit right walk).2).2) :=
    items_pair_eq_ok_iff.mpr
      ⟨⟨rightType, rightSame.symm.trans rightDone⟩, ⟨leftType, leftSame.trans leftDone⟩, rfl⟩
  obtain ⟨arrived, run, again⟩ :=
    simulatedBy_items [right, left] walk other reordered () _ crossed
  exact ⟨arrived, run, exchanged.trans again⟩

private theorem simulatedBy_exchange_between {left right : Node}
    (independent : left.Independent right)
    (earlier later : List Node) :
    (items (earlier ++ [left, right] ++ later)).SimulatedBy
      (items (earlier ++ [right, left] ++ later)) := by
  simp only [items_append]
  exact ((simulatedBy_items earlier).bind fun _ => simulatedBy_exchange independent).bind
    fun _ => simulatedBy_items later

end Check

/-! ## Programs -/

theorem Session.check_of_simulatedBy {nodes others : List Node}
    (simulated : (Check.items nodes).SimulatedBy (Check.items others)) (session : Session)
    (metrics : Metrics) (accepted : (session.check (.program nodes)).outcome = .ok metrics) :
    (session.check (.program others)).outcome = .ok metrics ∧
      (session.check (.program nodes)).session.symbols.entries.Perm
        (session.check (.program others)).session.symbols.entries := by
  rw [check_eq_close] at accepted ⊢
  rw [check_eq_close]
  rcases run : Check.items nodes ⟨session, _⟩ with ⟨fault | done, reached⟩
  · rw [run] at accepted
    cases accepted
  · rw [run] at accepted
    obtain ⟨arrived, otherRun, reordered⟩ :=
      simulated _ ⟨session, [.checking (Node.program others).size]⟩ (.refl session) done reached run
    rw [otherRun]
    refine ⟨?_, reordered.entries⟩
    rw [← accepted]
    exact congrArg Except.ok reordered.counted.metrics.symm

/-- Two neighbouring items of a program may change places if neither mentions a name that the other
declares. Either program is accepted if the other is, with the same metrics and the same bindings.
-/
theorem analyze_exchange {left right : Node} (independent : left.Independent right)
    (earlier later : List Node) :
    ((∃ metrics, analyze (.program (earlier ++ [left, right] ++ later)) = .ok metrics) ↔
      ∃ metrics, analyze (.program (earlier ++ [right, left] ++ later)) = .ok metrics) ∧
    ∀ metrics, analyze (.program (earlier ++ [left, right] ++ later)) = .ok metrics →
      analyze (.program (earlier ++ [right, left] ++ later)) = .ok metrics ∧
      (Session.check {}
          (.program (earlier ++ [left, right] ++ later))).session.symbols.entries.Perm
        (Session.check {}
          (.program (earlier ++ [right, left] ++ later))).session.symbols.entries := by
  have forth := Session.check_of_simulatedBy
    (Check.simulatedBy_exchange_between independent earlier later) {}
  have back := Session.check_of_simulatedBy
    (Check.simulatedBy_exchange_between independent.symm earlier later) {}
  rw [analyze, analyze]
  refine ⟨⟨?_, ?_⟩, forth⟩
  · rintro ⟨metrics, accepted⟩
    exact ⟨metrics, (forth metrics accepted).1⟩
  · rintro ⟨metrics, accepted⟩
    exact ⟨metrics, (back metrics accepted).1⟩

/-- An enumeration of two values. -/
def Node.lights : Node :=
  .enumStmt "light" ["red", "green"]

/-- A loop that reads a variable and declares another. -/
def Node.counting : Node :=
  .stmt (.whileStmt (.expr (.var "ready")) [.block [.declaration "num" "steps"]])

/-- A declaration and an assignment that use the names of both. -/
def Node.signalling : List Node :=
  [.enumDeclaration "light" "signal", .stmt (.assign "steps" (.expr (.int 2)))]

theorem analyze_lights_counting :
    Node.lights.Independent .counting ∧
    analyze (.program ([Node.declaration "bool" "ready"] ++ [Node.lights, Node.counting] ++
      Node.signalling)) = .ok { vars := 3, whiles := 1, enumValues := 2 } ∧
    analyze (.program ([Node.declaration "bool" "ready"] ++ [Node.counting, Node.lights] ++
      Node.signalling)) = .ok { vars := 3, whiles := 1, enumValues := 2 } := by
  have independent : Node.lights.Independent .counting := ⟨by decide, by decide⟩
  have accepted : analyze (.program ([Node.declaration "bool" "ready"] ++
      [Node.lights, Node.counting] ++ Node.signalling)) =
        .ok { vars := 3, whiles := 1, enumValues := 2 } := by decide +kernel
  exact ⟨independent, accepted, ((analyze_exchange independent _ _).2 _ accepted).1⟩

end TreeCheck
