import TreeCheck.Command.Check
import TreeCheck.Proofs.ConfigProperties
import TreeCheck.Proofs.DiskChanges

/-!
# A check is all or nothing

The command `check` judges each tree file by itself. The first file that fails decides, and then
nothing is printed or written. Otherwise all records are handed out at once, in the order of the
files: printed, or written to the file that the project names, with the directories above it.
-/

set_option autoImplicit false

namespace TreeCheck

/-- The line of a record: its five counters, each under its name. -/
def Metrics.line (record : Metrics) : String :=
  r"{" ++ ", ".intercalate
    [ "VAR:" ++ toString record.vars,
      "WHILE:" ++ toString record.whiles,
      "IF:" ++ toString record.ifs,
      "ENUM_VALUES:" ++ toString record.enumValues,
      "OP:" ++ toString record.operators ] ++ r"}" ++ "\n"

theorem Metrics.report_eq_lines (records : List Metrics) :
    report records = String.join (records.map line) := by
  have lined (record : Metrics) : record.text ++ "\n" = record.line := by
    rw [← String.toList_inj]
    unfold text line
    simp
  simp only [report, lined]

namespace Machine

/-! ## What is asked for -/

/-- The judgement on a tree file, whatever the other files hold. -/
inductive Judges (machine : Machine) (path : String) : Except Failure Metrics → Prop
  | unreadable {fault : DiskFault} : machine.readText path = .error fault →
      Judges machine path (.error (.loadTree path (.unreadable fault)))
  | malformed {source : String} {cause : LoadError} : machine.readText path = .ok source →
      parseTree source = .error cause → Judges machine path (.error (.loadTree path cause))
  | refused {source : String} {node : Node} {cause : Fault} : machine.readText path = .ok source →
      parseTree source = .ok node → analyze node = .error cause →
      Judges machine path (.error (.analysis cause))
  | accepted {source : String} {node : Node} {record : Metrics} :
      machine.readText path = .ok source → parseTree source = .ok node →
      analyze node = .ok record → Judges machine path (.ok record)

/-- Of the directories, `root` is the first that has a configuration file, and the file holds the
configuration. -/
structure HasConfig (machine : Machine) (directories : List String) (config : Config)
    (root : String) : Prop where
  nearest : ∃ nearer farther, directories = nearer ++ root :: farther ∧
    ∀ directory ∈ nearer, machine.pathExists (Path.join directory Config.fileName) = false
  read : ∃ source, machine.readText (Path.join root Config.fileName) = .ok source ∧
    Config.parse source = .ok config

/-- The tree files that a check with these arguments is about, and the file for the records. -/
inductive Asks (machine : Machine) : List String → List String → Option String → Prop
  | given {trees : List String} : trees ≠ [] → Asks machine trees trees none
  | project {config : Config} {root : String} :
      machine.HasConfig (Path.ancestors (absolutePath machine.workingDirectory)) config root →
      Asks machine [] (config.treePaths root) (config.metricsPath root)

/-- The file, at the place, holds the text, and all else is as it was, but that directories may have
appeared above the file. -/
structure Delivers (file content : String) (place : Location) (machine after : Machine) : Prop where
  workingDirectory : after.workingDirectory = machine.workingDirectory
  leads : after.Leads file place
  here : after.disk.standing? place = some (.file (.text content))
  elsewhere : ∀ other, other ≠ place →
    after.disk.standing? other = machine.disk.standing? other ∨
      (machine.disk.standing? other = none ∧ after.disk.standing? other = some .directory ∧
        (∃ path ∈ Path.above file, after.Leads path other) ∧
        (".." ∉ pathNames file → other <+: place))

variable {machine after : Machine} {path : String}

/-! ## Judging tree files -/

open Project

private theorem checkTree_of_judges {outcome : Except Failure Metrics}
    (judged : machine.Judges path outcome) :
    (checkTree path : Simulated (Except Failure Metrics)) machine = (outcome, machine) := by
  cases judged with
  | unreadable unread => simp [checkTree, loadTree, readTree, unread]
  | malformed read parsed => simp [checkTree, loadTree, readTree, read, parsed]
  | refused read parsed analyzed => simp [checkTree, loadTree, readTree, read, parsed, analyzed]
  | accepted read parsed analyzed => simp [checkTree, loadTree, readTree, read, parsed, analyzed]

theorem Judges.unique {outcome other : Except Failure Metrics}
    (judged : machine.Judges path outcome) (judgedOther : machine.Judges path other) :
    outcome = other := by
  have same := (checkTree_of_judges judged).symm.trans (checkTree_of_judges judgedOther)
  exact congrArg Prod.fst same

private theorem exists_judges (machine : Machine) (path : String) :
    ∃ outcome, machine.Judges path outcome := by
  cases read : machine.readText path with
  | error fault => exact ⟨_, .unreadable read⟩
  | ok source =>
      cases parsed : parseTree source with
      | error cause => exact ⟨_, .malformed read parsed⟩
      | ok node =>
          cases analyzed : analyze node with
          | error cause => exact ⟨_, .refused read parsed analyzed⟩
          | ok record => exact ⟨_, .accepted read parsed analyzed⟩

private theorem checkTrees_of_accepted {paths : List String} {records : List Metrics}
    (accepted : List.Forall₂ (fun path record => machine.Judges path (.ok record)) paths records) :
    (checkTrees paths : Simulated (Except Failure (List Metrics))) machine =
      (.ok records, machine) := by
  induction accepted with
  | nil => rfl
  | cons judged _ ih => simp [checkTrees, checkTree_of_judges judged, ih]

private theorem checkTrees_of_refused {before : List String} {failure : Failure}
    (earlier : ∀ path ∈ before, ∃ record, machine.Judges path (.ok record))
    (refused : machine.Judges path (.error failure)) (rest : List String) :
    (checkTrees (before ++ path :: rest) : Simulated (Except Failure (List Metrics))) machine =
      (.error failure, machine) := by
  induction before with
  | nil => simp [checkTrees, checkTree_of_judges refused]
  | cons first before ih =>
      obtain ⟨⟨record, judged⟩, others⟩ := List.forall_mem_cons.mp earlier
      simp [checkTrees, checkTree_of_judges judged, ih others]

/-- When a file fails there is a first one that fails. -/
theorem exists_first_refused {paths : List String} {failure : Failure} (member : path ∈ paths)
    (refused : machine.Judges path (.error failure)) :
    ∃ before first rest cause, paths = before ++ first :: rest ∧
      (∀ earlier ∈ before, ∃ record, machine.Judges earlier (.ok record)) ∧
      machine.Judges first (.error cause) := by
  induction paths with
  | nil => cases member
  | cons head tail ih =>
      obtain ⟨outcome, judged⟩ := machine.exists_judges head
      cases outcome with
      | error cause => exact ⟨[], head, tail, cause, rfl, by simp, judged⟩
      | ok record =>
          obtain rfl | further := List.mem_cons.mp member
          · cases judged.unique refused
          · obtain ⟨before, first, rest, cause, rfl, earlier, found⟩ := ih further
            have accepted := List.forall_mem_cons.mpr ⟨⟨record, judged⟩, earlier⟩
            exact ⟨head :: before, first, rest, cause, rfl, accepted, found⟩

/-- The record of the program that a document describes, given the characters of the document. -/
def recordOf? (document : List Char) : Option Metrics := do
  let statements ← Toml.statements (document.length + 1) document
  let table ← Toml.build statements
  let outline ← (Outline.ofTable table).toOption
  let node ← outline.toNode.toOption
  (analyze node).toOption

private theorem toOption_eq_some_iff {ε α : Type} {result : Except ε α} {value : α} :
    result.toOption = some value ↔ result = .ok value := by
  cases result <;> simp [Except.toOption]

theorem judges_of_recordOf? {source : String} {record : Metrics}
    (read : machine.readText path = .ok source)
    (found : recordOf? (Toml.dropMark source.toList) = some record) :
    machine.Judges path (.ok record) := by
  simp only [recordOf?, Option.bind_eq_bind, Option.bind_eq_some_iff,
    toOption_eq_some_iff] at found
  obtain ⟨statements, stated, table, built, outline, shaped, node, noded, analyzed⟩ := found
  have parsed : Toml.parse? source = some table := by
    simp [Toml.parse?, stated, built]
  refine .accepted read ?_ analyzed
  simp [parseTree, Toml.load, parsed, shaped, noded]

/-! ## Handing out records -/

theorem writes_of_emit {records : List Metrics} {file printed : String}
    (ran : (emit records (some file) : Simulated (Except Failure String)) machine =
      (.ok printed, after)) :
    printed = "" ∧ ∃ middle,
      (Storage.makeParents file : Simulated (Except (String × DiskFault) Unit)) machine =
        (.ok (), middle) ∧
      middle.writeText file (Metrics.report records) = .ok after := by
  rcases made : (Storage.makeParents file : Simulated (Except (String × DiskFault) Unit)) machine
    with ⟨outcome, middle⟩
  cases outcome with
  | error refused =>
      simp only [emit, run_bind, made] at ran
      cases ran
  | ok _ =>
      simp only [emit, run_bind, made, run_writeText, update] at ran
      cases written : middle.writeText file (Metrics.report records) with
      | error fault =>
          simp only [written] at ran
          cases ran
      | ok reached =>
          simp only [written] at ran
          cases ran
          exact ⟨rfl, middle, rfl, written⟩

theorem delivers_of_emit {records : List Metrics} {file printed : String}
    (ran : (emit records (some file) : Simulated (Except Failure String)) machine =
      (.ok printed, after)) :
    printed = "" ∧ ∃ place, Delivers file (Metrics.report records) place machine after := by
  obtain ⟨rfl, middle, made, written⟩ := writes_of_emit ran
  have grows := grows_of_makeParents made
  obtain ⟨place, puts, leads⟩ := puts_of_writeText written
  have leadsAfter := leads.mono puts.keeps
  refine ⟨rfl, place, puts.workingDirectory.trans grows.workingDirectory, leadsAfter, puts.here,
    fun other differs => ?_⟩
  rw [puts.elsewhere other differs]
  obtain same | ⟨missing, standing, path, member, leadsThere⟩ := grows.standing other
  · exact .inl same
  · have kept := leadsThere.mono puts.keeps
    exact .inr ⟨missing, standing, ⟨path, member, kept⟩, kept.startsLike member leadsAfter⟩

/-! ## Finding the project -/

private theorem loadConfig_spec (path : String) (machine : Machine) :
    ∃ outcome, (loadConfig path : Simulated (Except Failure Config)) machine = (outcome, machine) ∧
      ∀ config, outcome = .ok config ↔
        ∃ source, machine.readText path = .ok source ∧ Config.parse source = .ok config := by
  cases read : machine.readText path with
  | error fault => exact ⟨.error (.read path fault), by simp [loadConfig, read], by simp⟩
  | ok source =>
      cases parsed : Config.parse source with
      | error cause =>
          exact ⟨.error (.parseConfig cause), by simp [loadConfig, read, parsed], by simp [parsed]⟩
      | ok config => exact ⟨.ok config, by simp [loadConfig, read, parsed], by simp [parsed]⟩

private theorem pathExists_of_readText {source : String}
    (read : machine.readText path = .ok source) :
    machine.pathExists path = true := by
  cases found : machine.find path with
  | error fault => simp [readText, found, bind, Except.bind] at read
  | ok entry => simp [pathExists, found, Except.toBool]

theorem findAmong_spec (directories : List String) (machine : Machine) :
    ∃ outcome, (findAmong directories : Simulated (Except Failure (Config × String))) machine =
        (outcome, machine) ∧
      ∀ config root, outcome = .ok (config, root) ↔
        machine.HasConfig directories config root := by
  induction directories with
  | nil =>
      refine ⟨.error .noConfig, rfl, fun config root => ⟨fun found => (by cases found), ?_⟩⟩
      intro has
      obtain ⟨nearer, farther, split, -⟩ := has.nearest
      simp at split
  | cons directory others ih =>
      cases present : machine.pathExists (Path.join directory Config.fileName) with
      | true =>
          obtain ⟨outcome, ran, loaded⟩ :=
            loadConfig_spec (Path.join directory Config.fileName) machine
          refine ⟨outcome.map (·, directory), ?_, fun config root => ⟨?_, fun has => ?_⟩⟩
          · cases outcome <;> simp [findAmong, present, ran, Except.map]
          · intro found
            cases outcome with
            | error failure => simp [Except.map] at found
            | ok read =>
                obtain ⟨rfl, rfl⟩ : read = config ∧ directory = root := by
                  simpa [Except.map] using found
                exact ⟨⟨[], others, rfl, by simp⟩, (loaded read).mp rfl⟩
          · obtain ⟨nearer, farther, split, missing⟩ := has.nearest
            cases nearer with
            | nil =>
                obtain ⟨rfl, rfl⟩ : directory = root ∧ others = farther := by simpa using split
                rw [(loaded config).mpr has.read]
                rfl
            | cons first nearer =>
                obtain ⟨rfl, -⟩ : directory = first ∧ _ := by simpa using split
                have absent := missing directory (by simp)
                rw [present] at absent
                cases absent
      | false =>
          obtain ⟨outcome, ran, found⟩ := ih
          refine ⟨outcome, by simp [findAmong, present, ran], fun config root => ?_⟩
          rw [found config root]
          constructor
          · intro has
            obtain ⟨nearer, farther, rfl, missing⟩ := has.nearest
            exact ⟨⟨directory :: nearer, farther, rfl, by simpa [present] using missing⟩, has.read⟩
          · intro has
            obtain ⟨nearer, farther, split, missing⟩ := has.nearest
            cases nearer with
            | nil =>
                obtain ⟨rfl, rfl⟩ : directory = root ∧ others = farther := by simpa using split
                obtain ⟨source, read, -⟩ := has.read
                rw [pathExists_of_readText read] at present
                cases present
            | cons first nearer =>
                obtain ⟨rfl, rfl⟩ : directory = first ∧ others = nearer ++ root :: farther := by
                  simpa using split
                obtain ⟨-, others⟩ := List.forall_mem_cons.mp missing
                exact ⟨⟨nearer, farther, rfl, others⟩, has.read⟩

open Command

theorem checkFiles_of_accepted {paths : List String} {records : List Metrics}
    (accepted : List.Forall₂ (fun path record => machine.Judges path (.ok record)) paths records)
    (status : List String) :
    (checkFiles status paths none : Simulated Report) machine =
      ({ stdout := Metrics.report records
         status := status ++ [Status.finished records.length] }, machine) := by
  simp [checkFiles, checkTrees_of_accepted accepted, emit]

theorem check_of_asks {trees paths : List String} {destination : Option String}
    (asks : machine.Asks trees paths destination) :
    ∃ status, (check trees : Simulated Report) machine =
      (checkFiles status paths destination : Simulated Report) machine := by
  cases asks with
  | given some =>
      refine ⟨[], ?_⟩
      simp [check, some]
  | @project config root has =>
      obtain ⟨outcome, ran, found⟩ :=
        findAmong_spec (Path.ancestors (absolutePath machine.workingDirectory)) machine
      obtain rfl := (found config root).mpr has
      refine ⟨[Status.checking config.name root], ?_⟩
      simp [check, Project.find, findFrom, ran]

private theorem check_of_not_asks {trees : List String}
    (unasked : ∀ paths destination, ¬ machine.Asks trees paths destination) :
    ∃ failure,
      (check trees : Simulated Report) machine = ({ failure := some failure }, machine) := by
  have empty : trees = [] := by
    cases trees with
    | nil => rfl
    | cons first rest => exact absurd (.given (by simp)) (unasked (first :: rest) none)
  subst empty
  obtain ⟨outcome, ran, found⟩ :=
    findAmong_spec (Path.ancestors (absolutePath machine.workingDirectory)) machine
  cases outcome with
  | error failure => exact ⟨.outsideProject failure, by simp [check, Project.find, findFrom, ran]⟩
  | ok result =>
      obtain ⟨config, root⟩ := result
      exact absurd (.project ((found config root).mp rfl)) (unasked _ _)

/-- A check is all or nothing. When some tree fails, the first of them decides; otherwise the
records, each of which its tree has by itself, are all printed or all written. -/
theorem check_all_or_nothing {trees : List String} {report : Report}
    (ran : (check trees : Simulated Report) machine = (report, after)) :
    ((∀ paths destination, ¬ machine.Asks trees paths destination) →
      report.failure.isSome = true ∧ report.stdout = "" ∧ after = machine) ∧
    ∀ paths destination, machine.Asks trees paths destination →
      ((∃ path ∈ paths, ∃ failure, machine.Judges path (.error failure)) →
        ∃ before path rest failure, paths = before ++ path :: rest ∧
          (∀ earlier ∈ before, ∃ record, machine.Judges earlier (.ok record)) ∧
          machine.Judges path (.error failure) ∧
          report.failure = some failure ∧ report.stdout = "" ∧ after = machine) ∧
      ∀ records, List.Forall₂ (fun path record => machine.Judges path (.ok record)) paths records →
        (destination = none →
          report.failure = none ∧ report.stdout = String.join (records.map Metrics.line) ∧
            after = machine) ∧
        ∀ file, destination = some file → report.failure = none →
          report.stdout = "" ∧
            ∃ place, Delivers file (String.join (records.map Metrics.line)) place machine
              after := by
  constructor
  · intro unasked
    obtain ⟨failure, failed⟩ := check_of_not_asks unasked
    rw [failed] at ran
    cases ran
    exact ⟨rfl, rfl, rfl⟩
  intro paths destination asks
  obtain ⟨status, same⟩ := check_of_asks asks
  rw [same] at ran
  constructor
  · intro ⟨path, member, failure, refused⟩
    obtain ⟨before, first, rest, cause, rfl, earlier, found⟩ := exists_first_refused member refused
    have failed := checkTrees_of_refused earlier found rest
    simp only [checkFiles, run_bind, failed, run_pure] at ran
    cases ran
    exact ⟨before, first, rest, cause, rfl, earlier, found, rfl, rfl, rfl⟩
  · intro records accepted
    rw [← Metrics.report_eq_lines]
    constructor
    · intro printed
      subst printed
      rw [checkFiles_of_accepted accepted status] at ran
      cases ran
      exact ⟨rfl, rfl, rfl⟩
    · intro file written succeeded
      subst written
      simp only [checkFiles, run_bind, checkTrees_of_accepted accepted] at ran
      rcases emitted : (emit records (some file) : Simulated (Except Failure String)) machine with
        ⟨outcome, reached⟩
      rw [emitted] at ran
      cases outcome with
      | error failure =>
          cases ran
          cases succeeded
      | ok printed =>
          cases ran
          exact delivers_of_emit emitted

def workshopConfig : Config where
  name := "workshop"
  trees := ["trees/lamp.toml", "trees/empty.toml"]
  metrics := some "out/records/all.txt"

def lampTree : String :=
  r#"kind = "Program"
[[children]]
kind = "Declaration"
value = "bool"
children = [{ kind = "Identifier", value = "lamp" }]
"#

/-- A project with two trees, seen from their directory. The directories for its records are
missing. -/
def workshop : Machine where
  disk := ⟨[("sema.toml", .file (.text workshopConfig.render)),
    ("trees", .directory [("empty.toml", .file (.text "kind = \"Program\"")),
      ("lamp.toml", .file (.text lampTree))])]⟩
  workingDirectory := ["trees"]

private theorem unread_workshop : workshop.readText "none.toml" = .error .notFound := by
  rfl

private theorem judges_empty : workshop.Judges "/trees/empty.toml" (.ok {}) :=
  judges_of_recordOf? rfl (by decide +kernel)

private theorem judges_lamp : workshop.Judges "/trees/lamp.toml" (.ok { vars := 1 }) :=
  judges_of_recordOf? rfl (by decide +kernel)

private theorem hasConfig_workshop :
    workshop.HasConfig (Path.ancestors (absolutePath workshop.workingDirectory)) workshopConfig
      "/" where
  nearest := ⟨["/trees"], [], by decide +kernel, by decide +kernel⟩
  read := ⟨workshopConfig.render, rfl, workshopConfig.parse_render⟩

/-- The records of the project go to its file in the order of its trees, those of given files are
printed in the order of the files, and with a file that is missing nothing happens. -/
theorem workshop_check_all_or_nothing :
    (∃ report after place, (check [] : Simulated Report) workshop = (report, after) ∧
      report.failure = none ∧ report.stdout = "" ∧
      Delivers "/out/records/all.txt"
        ("{VAR:1, WHILE:0, IF:0, ENUM_VALUES:0, OP:0}\n" ++
          "{VAR:0, WHILE:0, IF:0, ENUM_VALUES:0, OP:0}\n") place workshop after) ∧
    (∃ report,
      (check ["/trees/empty.toml", "/trees/lamp.toml"] : Simulated Report) workshop =
        (report, workshop) ∧
      report.failure = none ∧
      report.stdout =
        "{VAR:0, WHILE:0, IF:0, ENUM_VALUES:0, OP:0}\n" ++
          "{VAR:1, WHILE:0, IF:0, ENUM_VALUES:0, OP:0}\n") ∧
    ∃ report after,
      (check ["/trees/empty.toml", "none.toml"] : Simulated Report) workshop = (report, after) ∧
      report.failure ≠ none ∧ report.stdout = "" ∧ after = workshop := by
  refine ⟨?_, ?_, ?_⟩
  · have ran := (Prod.eta ((check [] : Simulated Report) workshop)).symm
    have succeeded : ((check [] : Simulated Report) workshop).1.failure.isNone = true := by
      decide +kernel
    have unfailing := Option.isNone_iff_eq_none.mp succeeded
    have accepted : List.Forall₂ (fun path record => workshop.Judges path (.ok record))
        (workshopConfig.treePaths "/") [{ vars := 1 }, {}] :=
      .cons judges_lamp (.cons judges_empty .nil)
    obtain ⟨-, asked⟩ := check_all_or_nothing ran
    obtain ⟨-, passed⟩ := asked _ _ (.project hasConfig_workshop)
    obtain ⟨-, delivered⟩ := passed _ accepted
    obtain ⟨silent, place, written⟩ := delivered "/out/records/all.txt" rfl unfailing
    have text : String.join ([{ vars := 1 }, {}].map Metrics.line) =
        "{VAR:1, WHILE:0, IF:0, ENUM_VALUES:0, OP:0}\n" ++
          "{VAR:0, WHILE:0, IF:0, ENUM_VALUES:0, OP:0}\n" := by decide +kernel
    exact ⟨_, _, place, ran, unfailing, silent, text ▸ written⟩
  · have ran := (Prod.eta
      ((check ["/trees/empty.toml", "/trees/lamp.toml"] : Simulated Report) workshop)).symm
    have accepted : List.Forall₂ (fun path record => workshop.Judges path (.ok record))
        ["/trees/empty.toml", "/trees/lamp.toml"] [{}, { vars := 1 }] :=
      .cons judges_empty (.cons judges_lamp .nil)
    obtain ⟨-, asked⟩ := check_all_or_nothing ran
    obtain ⟨-, passed⟩ := asked _ _ (.given (by simp))
    obtain ⟨printed, -⟩ := passed _ accepted
    obtain ⟨unfailing, stdout, same⟩ := printed rfl
    rw [same] at ran
    refine ⟨_, ran, unfailing, stdout.trans ?_⟩
    decide +kernel
  · have ran := (Prod.eta
      ((check ["/trees/empty.toml", "none.toml"] : Simulated Report) workshop)).symm
    obtain ⟨-, asked⟩ := check_all_or_nothing ran
    obtain ⟨failed, -⟩ := asked _ _ (.given (by simp))
    have missing : workshop.Judges "none.toml" (.error _) := .unreadable unread_workshop
    obtain ⟨_, _, _, failure, -, -, -, reported, silent, same⟩ :=
      failed ⟨"none.toml", by simp, _, missing⟩
    exact ⟨_, _, ran, by simp [reported], silent, same⟩

end Machine

end TreeCheck
