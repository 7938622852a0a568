import TreeCheck.Proofs.DiskProperties
import TreeCheck.Proofs.ReadBack
import TreeCheck.Project.Locate

/-!
# Configurations are read back

The document of a configuration is a fixed list of lines. Each line is read as the statement it was
written for, the statements build the tables, and the tables hold the configuration.
-/

set_option autoImplicit false

namespace TreeCheck

namespace Toml

variable {word written rest : List Char}

/-! ## Lines -/

/-- A text that can stand as a key without quotes. -/
def isBareKey (word : List Char) : Bool :=
  !word.isEmpty && word.all isKeyChar

private theorem chars_of_isBareKey (bare : isBareKey word = true) :
    ∀ char ∈ word, isKeyChar char = true := by
  rw [isBareKey, Bool.and_eq_true] at bare
  exact List.all_eq_true.mp bare.2

private theorem isBareKey_cases (bare : isBareKey word = true) :
    ∃ char more, word = char :: more ∧ isKeyChar char = true := by
  cases word with
  | nil => cases bare
  | cons char more => exact ⟨char, more, rfl, chars_of_isBareKey bare char List.mem_cons_self⟩

/-- A line that starts with this character says something. -/
def opensStatement (char : Char) : Bool :=
  !isBlank char && char != '#' && char != '\n' && char != '\r'

private theorem opensStatement_of_isKeyChar {char : Char} (named : isKeyChar char = true) :
    opensStatement char = true := by
  simp only [opensStatement, isBlank, Bool.and_eq_true, Bool.not_eq_true', bne_iff_ne,
    Bool.or_eq_false_iff, beq_eq_false_iff_ne]
  refine ⟨⟨⟨⟨?_, ?_⟩, ?_⟩, ?_⟩, ?_⟩ <;> rintro rfl <;> cases named

private theorem skipBlanks_of_opensStatement {char : Char} (opens : opensStatement char = true)
    (text : List Char) : skipBlanks (char :: text) = char :: text := by
  have noBlank : isBlank char = false := by
    simp only [opensStatement, Bool.and_eq_true, Bool.not_eq_true'] at opens
    exact opens.1.1.1
  simp [skipBlanks, noBlank]

private theorem keyPart_bare (bare : isBareKey word = true)
    (ended : rest.takeWhile isKeyChar = []) :
    keyPart (word ++ rest) = some (String.ofList word, rest) := by
  have taken : (word ++ rest).takeWhile isKeyChar = word := by
    rw [List.takeWhile_append_of_pos (chars_of_isBareKey bare), ended, List.append_nil]
  have dropped : (word ++ rest).dropWhile isKeyChar = rest := by
    rw [List.dropWhile_append_of_pos (chars_of_isBareKey bare)]
    simpa [ended] using (List.takeWhile_append_dropWhile (p := isKeyChar) (l := rest))
  obtain ⟨char, more, rfl, named⟩ := isBareKey_cases bare
  rw [keyPart.eq_3]
  · rw [taken, dropped]
    rfl
  · rintro _ ⟨⟩
    cases named
  · rintro _ ⟨⟩
    cases named

private theorem key_bare (bare : isBareKey word = true) (ended : rest.takeWhile isKeyChar = [])
    (undotted : (skipBlanks rest).head? ≠ some '.') :
    key (word ++ rest) = some (([], String.ofList word), skipBlanks rest) := by
  have part := keyPart_bare bare ended
  have opened : skipBlanks (word ++ rest) = word ++ rest := by
    obtain ⟨char, more, rfl, named⟩ := isBareKey_cases bare
    exact skipBlanks_of_opensStatement (opensStatement_of_isKeyChar named) _
  rw [key, maxDepth, keyParts, opened, part]
  simp only [Option.bind_eq_bind, Option.bind_some]
  split
  · rename_i dotted
    rw [dotted] at undotted
    exact absurd rfl undotted
  · rfl

private theorem statement_header (bare : isBareKey word = true) (rest : List Char) :
    statement ('[' :: (word ++ ']' :: '\n' :: rest)) =
      some (.table [] (String.ofList word), rest) := by
  have name := @key_bare word (']' :: '\n' :: rest) bare rfl (by simp [skipBlanks, isBlank])
  obtain ⟨char, more, rfl, named⟩ := isBareKey_cases bare
  rw [statement.eq_2, name]
  · rfl
  · rintro _ ⟨⟩
    cases named

private theorem statement_line {found : Value} (bare : isBareKey word = true)
    (opened : skipBlanks (written ++ '\n' :: rest) = written ++ '\n' :: rest)
    (read : value maxDepth (written ++ '\n' :: rest) = some (found, '\n' :: rest)) :
    statement (word ++ ' ' :: '=' :: ' ' :: (written ++ '\n' :: rest)) =
      some (.define [] (String.ofList word) found, rest) := by
  have name := @key_bare word (' ' :: '=' :: ' ' :: (written ++ '\n' :: rest)) bare rfl
    (by simp [skipBlanks, isBlank])
  have blank : skipBlanks (' ' :: (written ++ '\n' :: rest)) = written ++ '\n' :: rest := opened
  obtain ⟨char, more, rfl, named⟩ := isBareKey_cases bare
  rw [statement.eq_3]
  · rw [pair, name]
    change ((value maxDepth (skipBlanks (' ' :: (written ++ '\n' :: rest)))).bind _).bind _ = _
    rw [blank, read]
    rfl
  · intro _ same
    obtain rfl := List.head_eq_of_cons_eq same
    cases named
  · intro _ same
    obtain rfl := List.head_eq_of_cons_eq same
    cases named

/-! ## Documents -/

private theorem statements_statement {limit : Nat} {char : Char} {first : Statement}
    {text : List Char}
    (opens : opensStatement char = true) (read : statement (char :: text) = some (first, rest)) :
    statements (limit + 1) (char :: text) = (statements limit rest).map (first :: ·) := by
  have opened := skipBlanks_of_opensStatement opens text
  rw [statements, opened]
  split
  · contradiction
  · rename_i same
    obtain rfl := List.head_eq_of_cons_eq same
    cases opens
  · rename_i same
    obtain rfl := List.head_eq_of_cons_eq same
    cases opens
  · rename_i same
    obtain rfl := List.head_eq_of_cons_eq same
    cases opens
  · rw [read]
    change (statements limit rest).bind _ = _
    cases statements limit rest <;> rfl

private theorem statements_header {name : String} (bare : isBareKey name.toList = true)
    (limit : Nat)
    (rest : List Char) :
    statements (limit + 1) ('[' :: (name.toList ++ ']' :: '\n' :: rest)) =
      (statements limit rest).map (.table [] name :: ·) := by
  have read := statement_header bare rest
  rw [String.ofList_toList] at read
  exact statements_statement rfl read

private theorem statements_line {name : String} {found : Value}
    (bare : isBareKey name.toList = true)
    (opened : skipBlanks (written ++ '\n' :: rest) = written ++ '\n' :: rest)
    (read : value maxDepth (written ++ '\n' :: rest) = some (found, '\n' :: rest)) (limit : Nat) :
    statements (limit + 1) (Config.line name written ++ rest) =
      (statements limit rest).map (.define [] name found :: ·) := by
  have line := statement_line bare opened read
  have shape : Config.line name written ++ rest =
      name.toList ++ ' ' :: '=' :: ' ' :: (written ++ '\n' :: rest) := by
    simp [Config.line]
  obtain ⟨char, more, same, named⟩ := isBareKey_cases bare
  rw [String.ofList_toList, same] at line
  rw [shape, same]
  exact statements_statement (opensStatement_of_isKeyChar named) line

private theorem statements_writeString {name : String} (bare : isBareKey name.toList = true)
    (text : String)
    (limit : Nat) (rest : List Char) :
    statements (limit + 1) (Config.line name (writeString text.toList) ++ rest) =
      (statements limit rest).map (.define [] name (.string text) :: ·) := by
  refine statements_line bare ?_ ?_ limit
  · rcases writeString_cases text.toList with ⟨inner, opening⟩ | ⟨inner, opening⟩ <;>
      rw [opening] <;> rfl
  · rw [value_writeString maxDepth text.toList (by simp) (by simp), String.ofList_toList]

private theorem statements_writeStrings {name : String} (bare : isBareKey name.toList = true)
    (texts : List String) (limit : Nat) (rest : List Char) :
    statements (limit + 1) (Config.line name (writeStrings (texts.map String.toList)) ++ rest) =
      (statements limit rest).map
        (.define [] name (.array .listed (texts.map .string)) :: ·) := by
  have strings : (texts.map String.toList).map Value.ofChars = texts.map .string := by
    simp [Value.ofChars]
  refine statements_line bare ?_ ?_ limit
  · match texts with
    | [] | [_] | _ :: _ :: _ => rfl
  · rw [maxDepth, value_writeStrings, strings]

end Toml

namespace Config

/-! ## The document of a configuration -/

/-- The lines of the document. -/
def statements (config : Config) : List Toml.Statement :=
  [.table [] "project", .define [] "name" (.string config.name),
    .define [] "trees" (.array .listed (config.trees.map .string)), .table [] "output"] ++
    config.metrics.toList.map fun metrics => .define [] "metrics" (.string metrics)

/-- The tables of the document. -/
def table (config : Config) : Toml.Table :=
  [("project", .table [("name", .string config.name),
      ("trees", .array .listed (config.trees.map .string))]),
    ("output", .table (config.metrics.toList.map fun metrics => ("metrics", .string metrics)))]

private theorem toList_render (config : Config) :
    config.render.toList =
      '[' :: ("project".toList ++ ']' :: '\n' ::
        (line "name" (Toml.writeString config.name.toList) ++
          (line "trees" (Toml.writeStrings (config.trees.map String.toList)) ++
            '\n' :: '[' :: ("output".toList ++ ']' :: '\n' ::
              config.metrics.toList.flatMap fun metrics =>
                line "metrics" (Toml.writeString metrics.toList))))) := by
  have project : "[project]\n".toList = '[' :: ("project".toList ++ [']', '\n']) := rfl
  have output : "\n[output]\n".toList = '\n' :: '[' :: ("output".toList ++ [']', '\n']) := rfl
  unfold render
  cases config.metrics <;>
    simp only [String.toList_ofList, project, output, Option.toList_none, Option.toList_some,
      List.flatMap_nil, List.flatMap_cons, List.append_assoc, List.cons_append, List.nil_append,
      List.append_nil]

private theorem statements_render (config : Config) (limit : Nat) :
    Toml.statements (limit + 7) config.render.toList = some config.statements := by
  have blank : ∀ (limit : Nat) (text : List Char),
      Toml.statements (limit + 1) ('\n' :: text) = Toml.statements limit text :=
    fun _ _ => rfl
  rw [toList_render, Toml.statements_header rfl, Toml.statements_writeString rfl,
    Toml.statements_writeStrings rfl, blank, Toml.statements_header rfl, statements]
  cases config.metrics with
  | none => rfl
  | some metrics =>
      rw [Option.toList_some, List.flatMap_singleton]
      have last := @Toml.statements_writeString "metrics" rfl metrics (limit + 1) []
      rw [List.append_nil] at last
      rw [last]
      rfl

private theorem build_statements (config : Config) :
    Toml.build config.statements = some config.table := by
  rcases config with ⟨name, trees, metrics⟩
  cases metrics <;> rfl

private theorem mapM_asString (expected : String) (texts : List String) :
    (texts.map Toml.Value.string).mapM (Toml.Value.asString expected) = .ok texts := by
  induction texts with
  | nil => rfl
  | cons text texts ih =>
      rw [List.map_cons, List.mapM_cons, ih]
      rfl

private theorem readProject_table (name : String) (trees : List String) :
    readProject (.table [("name", .string name), ("trees", .array .listed (trees.map .string))]) =
      .ok (name, trees) := by
  have read : Toml.Value.asStrings expectedPath (.array .listed (trees.map .string)) = .ok trees :=
    mapM_asString expectedPath trees
  simp [readProject, Toml.Value.entries?, readProjectFields, Toml.Value.asString, read, bind,
    Except.bind, pure, Except.pure]

private theorem ofTable_table (config : Config) : ofTable config.table = .ok config := by
  rcases config with ⟨name, trees, metrics⟩
  cases metrics <;>
    simp [ofTable, table, readParts, readProject_table, readOutput, Toml.Value.entries?,
      readOutputFields, Toml.Value.asString, bind, Except.bind, pure, Except.pure]

/-- A configuration is what is read from its document. -/
theorem parse_render (config : Config) : parse config.render = .ok config := by
  have parsed : Toml.parse? config.render = some config.table := by
    have unmarked : Toml.dropMark config.render.toList = config.render.toList := by
      rw [toList_render]
      rfl
    have long : 6 ≤ config.render.toList.length := by
      rw [toList_render, List.length_cons, List.length_append]
      change 6 ≤ (7 + _) + 1
      omega
    obtain ⟨limit, length⟩ : ∃ limit, config.render.toList.length + 1 = limit + 7 :=
      ⟨config.render.toList.length - 6, by omega⟩
    rw [Toml.parse?, unmarked, length, statements_render]
    exact build_statements config
  rw [parse, Toml.load, parsed]
  dsimp only
  rw [ofTable_table]

end Config

/-! ## Saving and loading -/

namespace Project

open Machine (Simulated)

theorem saveConfig_run (config : Config) (path : String) (machine : Machine) :
    (saveConfig config path : Simulated (Except Failure Unit)) machine =
      match machine.writeText path config.render with
      | .ok after => (.ok (), after)
      | .error fault => (.error (.write path fault), machine) := by
  change (bind (Machine.update (·.writeText path config.render)) _ : Simulated _) machine = _
  dsimp only [bind, StateT.bind, Machine.update]
  cases machine.writeText path config.render <;> rfl

private theorem loadConfig_run {path source : String} {machine : Machine}
    (read : machine.readText path = .ok source) :
    (loadConfig path : Simulated (Except Failure Config)) machine =
      match Config.parse source with
      | .ok config => (.ok config, machine)
      | .error cause => (.error (.parseConfig cause), machine) := by
  change (bind (fun machine => (machine.readText path, machine)) _ : Simulated _) machine = _
  dsimp only [bind, StateT.bind]
  rw [read]
  dsimp only
  cases Config.parse source <;> rfl

/-- What is saved is the document of the configuration, and it loads as the same configuration:
with the same name, the same trees, also when there are none, and the same metrics file, also when
there is none. -/
theorem loadConfig_saveConfig (config : Config) :
    Config.parse config.render = .ok config ∧
    ∀ (path : String) (machine after : Machine),
      (saveConfig config path : Simulated (Except Failure Unit)) machine = (.ok (), after) →
      after.readText path = .ok config.render ∧
      (loadConfig path : Simulated (Except Failure Config)) after = (.ok config, after) := by
  refine ⟨config.parse_render, fun path machine after saved => ?_⟩
  rw [saveConfig_run] at saved
  cases written : machine.writeText path config.render with
  | error fault =>
      rw [written] at saved
      cases saved
  | ok reached =>
      rw [written] at saved
      cases saved
      have read := Machine.readText_of_writeText written
      exact ⟨read, by rw [loadConfig_run read, config.parse_render]⟩

/-- A name with a line feed and a control character, no trees and a path with quotes. -/
def awkwardConfig : Config where
  name := "it's\n\x01"
  trees := []
  metrics := some "a \"b\" 'c' \\"

theorem awkwardConfig_loadConfig_saveConfig :
    ∃ after : Machine,
      (saveConfig awkwardConfig "sema.toml" : Simulated (Except Failure Unit)) {} =
        (.ok (), after) ∧
      (loadConfig "sema.toml" : Simulated (Except Failure Config)) after =
        (.ok awkwardConfig, after) := by
  have saved : ({} : Machine).writeText "sema.toml" awkwardConfig.render =
      .ok ⟨⟨[("sema.toml", .file (.text awkwardConfig.render))]⟩, []⟩ := rfl
  have ran : (saveConfig awkwardConfig "sema.toml" : Simulated (Except Failure Unit)) {} =
      (.ok (), ⟨⟨[("sema.toml", .file (.text awkwardConfig.render))]⟩, []⟩) := by
    rw [saveConfig_run, saved]
  exact ⟨_, ran, ((loadConfig_saveConfig awkwardConfig).2 _ _ _ ran).2⟩

end Project

end TreeCheck
