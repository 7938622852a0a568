import TreeCheck.Command.Init
import TreeCheck.Proofs.CheckProperties

/-!
# A new project

The command `init` makes a project of any directory, whatever its name. It adds a configuration and,
unless there is one, a tree file; all else stays as it was. The project is found from its directory
and checks there with the record of the starter tree, and a directory that has a configuration is
never made a project again.
-/

set_option autoImplicit false

namespace TreeCheck.Machine

open Command Project

/-! ## The files of a new project -/

/-- The location of `sema.toml` in a directory. -/
abbrev configLocation (base : Location) : Location :=
  base ++ pathNames Config.fileName

/-- The location of `trees` in a directory. -/
abbrev treesLocation (base : Location) : Location :=
  base ++ pathNames "trees"

/-- The location of `trees/main.toml` in a directory. -/
abbrev treeLocation (base : Location) : Location :=
  base ++ pathNames "trees/main.toml"

/-- A project with this name is made at the location: its configuration is new, and so is its tree
file unless there was one. -/
structure Founds (name : String) (base : Location) (machine after : Machine) : Prop where
  workingDirectory : after.workingDirectory = machine.workingDirectory
  unconfigured : machine.disk.standing? (configLocation base) = none
  configured : after.disk.standing? (configLocation base) =
    some (.file (.text (Config.new name).render))
  planted : machine.disk.standing? (treeLocation base) = none →
    after.disk.standing? (treeLocation base) = some (.file (.text starterTree)) ∧
      after.disk.standing? (treesLocation base) = some .directory
  elsewhere : ∀ location, location ≠ configLocation base →
    (machine.disk.standing? (treeLocation base) = none →
      location ≠ treeLocation base ∧ location ≠ treesLocation base) →
    after.disk.standing? location = machine.disk.standing? location
  files : ∀ location content, machine.disk.standing? location = some (.file content) →
    after.disk.standing? location = some (.file content)

/-- The name of a project in a directory. -/
def projectName (directory : String) : String :=
  (Path.fileName? directory).getD defaultName

theorem plain_config : Plain Config.fileName := by decide

theorem plain_trees : Plain "trees" := by decide

theorem plain_tree : Plain "trees/main.toml" := by decide

theorem dropLast_config : (pathNames Config.fileName).dropLast = [] := by decide

theorem dropLast_trees : (pathNames "trees").dropLast = [] := by decide

theorem dropLast_tree : (pathNames "trees/main.toml").dropLast = pathNames "trees" := by decide

theorem configLocation_ne (base : Location) :
    configLocation base ≠ treeLocation base ∧ configLocation base ≠ treesLocation base := by
  constructor
  · exact fun same => absurd (List.append_cancel_left same) (by decide)
  · exact fun same => absurd (List.append_cancel_left same) (by decide)

theorem treesLocation_ne_treeLocation (base : Location) :
    treesLocation base ≠ treeLocation base :=
  fun same => absurd (List.append_cancel_left same) (by decide)

/-! ## Planting the tree -/

section Plant

variable {machine after : Machine} {directory : String} {base : Location}

private theorem parent?_tree (directory : String) :
    Path.parent? (Path.join directory "trees/main.toml") = some (Path.join directory "trees") := by
  by_cases present : directory = ""
  · subst present
    decide +kernel
  have whole : Path.join directory "trees" =
      String.ofList (Path.stem directory ++ ['/'] ++ "trees".toList) := by
    rw [← String.toList_inj, Path.toList_join present plain_trees.relative]
    simp
  have spelled : (Path.join directory "trees/main.toml").toList =
      Path.stem directory ++ ['/'] ++ "trees".toList ++ '/' :: "main.toml".toList := by
    rw [Path.toList_join present plain_tree.relative]
    simp
  have file : Path.IsName "main.toml".toList := ⟨by decide, by decide, by decide⟩
  have holder : Path.IsName "trees".toList := ⟨by decide, by decide, by decide⟩
  rw [whole]
  exact Path.parent?_of_isName file holder spelled

theorem makeParents_of_ensureDirectory {outcome : Except DiskFault Unit}
    (ensured : (Storage.ensureDirectory (Path.join directory "trees") :
      Simulated (Except DiskFault Unit)) machine = (outcome, after))
    (found : outcome ≠ .error .notFound) :
    (Storage.makeParents (Path.join directory "trees/main.toml") :
      Simulated (Except (String × DiskFault) Unit)) machine =
        (outcome.mapError (Path.join directory "trees", ·), after) := by
  obtain ⟨others, chain⟩ := Path.ancestors_eq_cons (Path.join directory "trees")
  have filled : (Path.join directory "trees").isEmpty = false := by
    simpa using (plain_trees.continues directory).present
  simp only [Storage.makeParents, parent?_tree, Storage.makeDirectories, chain,
    Storage.makeChain, filled, Bool.false_eq_true, if_false, run_bind, ensured]
  cases outcome with
  | ok _ => rfl
  | error fault =>
      cases fault with
      | notFound => exact absurd rfl found
      | _ => rfl

/-- The directory of the tree is there, or it is made. -/
theorem makeParents_tree (leads : machine.Leads directory base)
    (held : machine.disk.HasDirectory base)
    (ran : (Storage.makeParents (Path.join directory "trees/main.toml") :
      Simulated (Except (String × DiskFault) Unit)) machine = (.ok (), after)) :
    (after = machine ∧ machine.disk.HasDirectory (treesLocation base)) ∨
      (Puts .directory (treesLocation base) machine after ∧
        machine.disk.standing? (treesLocation base) = none) := by
  cases made : machine.makeDirectory (Path.join directory "trees") with
  | ok reached =>
      rw [makeParents_of_ensureDirectory (ensureDirectory_of_ok made) (by simp)] at ran
      cases ran
      exact .inr (plain_trees.puts_of_makeDirectory leads made)
  | error fault =>
      have other : fault ≠ .notFound := fun same =>
        plain_trees.makeDirectory_ne_notFound leads (by simpa [dropLast_trees] using held)
          (same ▸ made)
      have ensured := ensureDirectory_of_error made
      cases there : machine.isDirectory (Path.join directory "trees") with
      | true =>
          rw [there, if_pos rfl] at ensured
          rw [makeParents_of_ensureDirectory ensured (by simp)] at ran
          cases ran
          obtain ⟨place, leadsBelow, standing⟩ := isDirectory_iff.mp there
          obtain rfl := plain_trees.eq_of_leads_join leads leadsBelow
          exact .inl ⟨rfl, standing⟩
      | false =>
          rw [there, if_neg Bool.false_ne_true] at ensured
          rw [makeParents_of_ensureDirectory ensured (by simpa using other)] at ran
          cases ran

/-- The starter tree is put where nothing was, in a directory that may be new. -/
structure Plants (base : Location) (machine after : Machine) : Prop where
  workingDirectory : after.workingDirectory = machine.workingDirectory
  missing : machine.disk.standing? (treeLocation base) = none
  tree : after.disk.standing? (treeLocation base) = some (.file (.text starterTree))
  trees : after.disk.standing? (treesLocation base) = some .directory
  noFile : ∀ content, machine.disk.standing? (treesLocation base) ≠ some (.file content)
  elsewhere : ∀ location, location ≠ treeLocation base → location ≠ treesLocation base →
    after.disk.standing? location = machine.disk.standing? location

private theorem plants_of_puts {middle : Machine}
    (prepared : middle = machine ∧ machine.disk.HasDirectory (treesLocation base) ∨
      Puts .directory (treesLocation base) machine middle ∧
        machine.disk.standing? (treesLocation base) = none)
    (missing : machine.disk.standing? (treeLocation base) = none)
    (puts : Puts (.file (.text starterTree)) (treeLocation base) middle after) :
    Plants base machine after := by
  have apart := treesLocation_ne_treeLocation base
  obtain ⟨rfl, held⟩ | ⟨made, absent⟩ := prepared
  · rw [Disk.hasDirectory_iff] at held
    exact ⟨puts.workingDirectory, missing, puts.here, (puts.elsewhere _ apart).trans held,
      by simp [held], fun location other _ => puts.elsewhere location other⟩
  · exact ⟨puts.workingDirectory.trans made.workingDirectory, missing, puts.here,
      (puts.elsewhere _ apart).trans made.here, by simp [absent],
      fun location other differs => (puts.elsewhere location other).trans
        (made.elsewhere location differs)⟩

private theorem plants_of_plantTree (leads : machine.Leads directory base)
    (held : machine.disk.HasDirectory base)
    (ran : (plantTree (Path.join directory "trees/main.toml") :
      Simulated (Except Failure Unit)) machine = (.ok (), after)) :
    (after = machine ∧ machine.disk.standing? (treeLocation base) ≠ none) ∨
      (Plants base machine after ∧ Passable (Path.join directory "trees/main.toml")) := by
  cases there : machine.pathExists (Path.join directory "trees/main.toml") with
  | true =>
      simp only [plantTree, run_bind, run_pathExists, there] at ran
      cases ran
      obtain ⟨place, leadsBelow, standing⟩ := standing_of_pathExists there
      obtain rfl := plain_tree.eq_of_leads_join leads leadsBelow
      exact .inl ⟨rfl, standing⟩
  | false =>
      simp only [plantTree, run_bind, run_pathExists, there, Bool.false_eq_true, if_false] at ran
      rcases made : (Storage.makeParents (Path.join directory "trees/main.toml") :
        Simulated (Except (String × DiskFault) Unit)) machine with ⟨outcome, middle⟩
      simp only [made] at ran
      cases outcome with
      | error refused => cases ran
      | ok _ =>
          simp only [run_bind, run_writeText, update] at ran
          cases written : middle.writeText (Path.join directory "trees/main.toml") starterTree with
          | error fault =>
              simp only [written] at ran
              cases ran
          | ok reached =>
              simp only [written] at ran
              cases ran
              have leadsMiddle := leads.mono (grows_of_makeParents made).keeps
              obtain ⟨puts, passable⟩ := plain_tree.puts_of_writeText leadsMiddle written
              have missing : machine.disk.standing? (treeLocation base) = none := by
                simpa [plain_tree.pathExists_join leads passable] using there
              exact .inr ⟨plants_of_puts (makeParents_tree leads held made) missing puts, passable⟩

end Plant

/-! ## Making a project -/

section Found

variable {machine after : Machine} {directory : String} {base : Location}

theorem treePaths_new (name directory : String) :
    (Config.new name).treePaths directory = [Path.join directory "trees/main.toml"] := rfl

private theorem init_of_success {report : Report}
    (ran : (init directory : Simulated Report) machine = (report, after))
    (succeeded : report.failure = none) :
    machine.pathExists (Path.join directory Config.fileName) = false ∧
      ∃ middle, machine.writeText (Path.join directory Config.fileName)
          (Config.new (projectName directory)).render = .ok middle ∧
        (plantTree (Path.join directory "trees/main.toml") : Simulated (Except Failure Unit))
          middle = (.ok (), after) := by
  cases there : machine.pathExists (Path.join directory Config.fileName) with
  | true =>
      simp only [init, run_bind, run_pathExists, there] at ran
      cases ran
      cases succeeded
  | false =>
      simp only [init, run_bind, run_pathExists, there, Bool.false_eq_true, if_false,
        saveConfig_run] at ran
      cases written : machine.writeText (Path.join directory Config.fileName)
          (Config.new (projectName directory)).render with
      | error fault =>
          unfold projectName at written
          simp only [written] at ran
          cases ran
          cases succeeded
      | ok middle =>
          refine ⟨rfl, middle, rfl, ?_⟩
          unfold projectName at written
          simp only [written, treePaths_new, plantTrees, run_bind] at ran
          rcases planted : (plantTree (Path.join directory "trees/main.toml") :
            Simulated (Except Failure Unit)) middle with ⟨outcome, reached⟩
          simp only [planted] at ran
          cases outcome with
          | error failure =>
              cases ran
              cases succeeded
          | ok _ =>
              cases ran
              rfl

private theorem founds_of_plants {name : String} {middle : Machine}
    (puts : Puts (.file (.text (Config.new name).render)) (configLocation base) machine middle)
    (unconfigured : machine.disk.standing? (configLocation base) = none)
    (planted : (after = middle ∧ middle.disk.standing? (treeLocation base) ≠ none) ∨
      Plants base middle after) : Founds name base machine after := by
  obtain ⟨noTree, noTrees⟩ := configLocation_ne base
  have tree := puts.elsewhere _ noTree.symm
  have notConfig {location : Location} {content : Content}
      (held : machine.disk.standing? location = some (.file content)) :
      location ≠ configLocation base := by
    intro same
    rw [same, unconfigured] at held
    cases held
  obtain ⟨rfl, standing⟩ | plants := planted
  · exact {
      workingDirectory := puts.workingDirectory
      unconfigured
      configured := puts.here
      planted := fun missing => absurd (tree.trans missing) standing
      elsewhere := fun location differs _ => puts.elsewhere location differs
      files := fun location content held => (puts.elsewhere location (notConfig held)).trans held }
  · have missing := tree.symm.trans plants.missing
    refine {
      workingDirectory := plants.workingDirectory.trans puts.workingDirectory
      unconfigured
      configured := (plants.elsewhere _ noTree noTrees).trans puts.here
      planted := fun _ => ⟨plants.tree, plants.trees⟩
      elsewhere := fun location differs others => ?_
      files := fun location content held => ?_ }
    · obtain ⟨notTree, notTrees⟩ := others missing
      exact (plants.elsewhere location notTree notTrees).trans (puts.elsewhere location differs)
    · have before := (puts.elsewhere location (notConfig held)).trans held
      have notTree : location ≠ treeLocation base := by
        intro same
        rw [same, plants.missing] at before
        cases before
      have notTrees : location ≠ treesLocation base := by
        intro same
        rw [same] at before
        exact plants.noFile content before
      exact (plants.elsewhere location notTree notTrees).trans before

theorem Founds.keeps {name : String} (founds : Founds name base machine after) :
    machine.Keeps after where
  workingDirectory := founds.workingDirectory
  directory place held := by
    rw [Disk.hasDirectory_iff] at held ⊢
    have notConfig : place ≠ configLocation base := by
      intro same
      rw [same, founds.unconfigured] at held
      cases held
    by_cases missing : machine.disk.standing? (treeLocation base) = none
    · have notTree : place ≠ treeLocation base := by
        intro same
        rw [same, missing] at held
        cases held
      by_cases trees : place = treesLocation base
      · rw [trees]
        exact (founds.planted missing).2
      · exact (founds.elsewhere place notConfig fun _ => ⟨notTree, trees⟩).trans held
    · exact (founds.elsewhere place notConfig fun none => absurd none missing).trans held

private theorem founds_of_init {report : Report} (leads : machine.Leads directory base)
    (held : machine.disk.HasDirectory base)
    (ran : (init directory : Simulated Report) machine = (report, after))
    (succeeded : report.failure = none) :
    Founds (projectName directory) base machine after ∧
      Passable (Path.join directory Config.fileName) ∧
      (machine.disk.standing? (treeLocation base) = none →
        Passable (Path.join directory "trees/main.toml")) := by
  obtain ⟨absent, middle, written, planted⟩ := init_of_success ran succeeded
  obtain ⟨puts, passable⟩ := plain_config.puts_of_writeText leads written
  have unconfigured : machine.disk.standing? (configLocation base) = none := by
    simpa [plain_config.pathExists_join leads passable] using absent
  have tree := puts.elsewhere _ (configLocation_ne base).1.symm
  obtain ⟨same, standing⟩ | ⟨plants, room⟩ :=
    plants_of_plantTree (leads.mono puts.keeps) (puts.keeps.directory base held) planted
  · exact ⟨founds_of_plants puts unconfigured (.inl ⟨same, standing⟩), passable,
      fun missing => absurd (tree.trans missing) standing⟩
  · exact ⟨founds_of_plants puts unconfigured (.inr plants), passable, fun _ => room⟩

private theorem plantTree_of_missing (leads : machine.Leads directory base)
    (held : machine.disk.HasDirectory base)
    (passable : Passable (Path.join directory "trees/main.toml"))
    (missing : machine.disk.standing? (treesLocation base) = none) :
    ∃ after, (plantTree (Path.join directory "trees/main.toml") :
      Simulated (Except Failure Unit)) machine = (.ok (), after) := by
  have treeless : machine.disk.standing? (treeLocation base) = none := by
    by_contra standing
    have holder := Disk.hasDirectory_of_standing plain_tree.named standing
    rw [dropLast_tree, Disk.hasDirectory_iff, missing] at holder
    cases holder
  have absent : machine.pathExists (Path.join directory "trees/main.toml") = false := by
    simp [plain_tree.pathExists_join leads passable, treeless]
  have room := passable.join_of_le plain_tree plain_trees (by decide) (by decide)
  have made := plain_trees.makeDirectory_join leads room (by simpa [dropLast_trees] using held)
  rw [if_pos missing] at made
  have parents := makeParents_of_ensureDirectory (ensureDirectory_of_ok made) (by simp)
  obtain ⟨puts, -⟩ := plain_trees.puts_of_makeDirectory leads made
  have treelessAfter := puts.elsewhere _ (treesLocation_ne_treeLocation base).symm
  obtain ⟨after, written⟩ := plain_tree.exists_writeText (leads.mono puts.keeps) passable
    (by rw [dropLast_tree]; exact Disk.hasDirectory_iff.mpr puts.here)
    (treelessAfter.trans treeless) starterTree
  exact ⟨after, by simp [plantTree, absent, parents, Except.mapError, update, written]⟩

/-- A directory with neither a configuration nor anything where the trees go is made a project,
if there is room for the path of the tree. -/
theorem init_of_missing (leads : machine.Leads directory base)
    (held : machine.disk.HasDirectory base)
    (unconfigured : machine.disk.standing? (configLocation base) = none)
    (missing : machine.disk.standing? (treesLocation base) = none)
    (passable : Passable (Path.join directory "trees/main.toml")) :
    ((init directory : Simulated Report) machine).1.failure = none := by
  have room := passable.join_of_le plain_tree plain_config (by decide) (by decide)
  have absent : machine.pathExists (Path.join directory Config.fileName) = false := by
    simp [plain_config.pathExists_join leads room, unconfigured]
  obtain ⟨middle, written⟩ := plain_config.exists_writeText leads room
    (by simpa [dropLast_config] using held) unconfigured
    (Config.new (projectName directory)).render
  obtain ⟨puts, -⟩ := plain_config.puts_of_writeText leads written
  have missingAfter := (puts.elsewhere _ (configLocation_ne base).2.symm).trans missing
  obtain ⟨after, planted⟩ := plantTree_of_missing (leads.mono puts.keeps)
    (puts.keeps.directory base held) passable missingAfter
  unfold projectName at written
  simp [init, absent, saveConfig_run, written, treePaths_new, plantTrees, planted]

/-- A directory with a configuration is not made a project. -/
theorem init_of_configured (leads : machine.Leads directory base)
    (configured : machine.disk.standing? (configLocation base) ≠ none) :
    ∃ failure, (init directory : Simulated Report) machine =
      ({ failure := some failure }, machine) := by
  have present := leads.passable.present
  by_cases passable : Passable (Path.join directory Config.fileName)
  · have there : machine.pathExists (Path.join directory Config.fileName) = true := by
      rwa [plain_config.pathExists_join leads passable, Option.isSome_iff_ne_none]
    exact ⟨.projectExists directory, by simp [init, there]⟩
  · obtain ⟨fault, refused, -⟩ :=
      machine.route_of_not_passable (plain_config.join_ne_empty present) passable
    have absent : machine.pathExists (Path.join directory Config.fileName) = false := by
      rw [pathExists, find, refused]
      rfl
    have unwritten (content : String) :
        machine.writeText (Path.join directory Config.fileName) content = .error fault := by
      rw [writeText, writeFile, refused]
      rfl
    exact ⟨.write (Path.join directory Config.fileName) fault,
      by simp [init, absent, saveConfig_run, unwritten]⟩

end Found

/-! ## Finding and checking the project -/

section Check

variable {machine : Machine} {name root : String} {base : Location}

private theorem hasConfig_of_configured
    (leads : machine.Leads (Path.join root Config.fileName) (configLocation base))
    (present : root ≠ "")
    (configured : machine.disk.standing? (configLocation base) =
      some (.file (.text (Config.new name).render))) :
    machine.HasConfig (Path.ancestors root) (Config.new name) root where
  nearest := by
    obtain ⟨others, chain⟩ := Path.ancestors_eq_cons root
    exact ⟨[], others, chain, by simp⟩
  read := ⟨(Config.new name).render,
    readText_of_standing leads (plain_config.unslashed_join present) configured,
    Config.parse_render _⟩

/-- The record of the starter tree. -/
def starterRecord : Metrics where
  vars := 1
  operators := 1

private theorem toList_starterTree :
    starterTree.toList = starterLines.flatMap fun line => line.toList ++ ['\n'] := by
  simp [starterTree, String.toList_join, List.flatMap_map]

private theorem recordOf?_starterTree :
    recordOf? (Toml.dropMark starterTree.toList) = some starterRecord := by
  simp only [toList_starterTree, starterLines, List.flatMap_cons, List.flatMap_nil,
    String.reduceToList, List.cons_append, List.nil_append]
  decide +kernel

/-- A new project checks in its directory. -/
theorem check_of_planted (here : machine.workingDirectory = base)
    (leads : machine.Leads (Path.join (absolutePath base) Config.fileName) (configLocation base))
    (leadsTree : machine.Leads (Path.join (absolutePath base) "trees/main.toml")
      (treeLocation base))
    (configured : machine.disk.standing? (configLocation base) =
      some (.file (.text (Config.new name).render)))
    (planted : machine.disk.standing? (treeLocation base) = some (.file (.text starterTree))) :
    ∃ status, (check [] : Simulated Report) machine =
      ({ stdout := Metrics.report [starterRecord], status }, machine) := by
  have present := absolutePath_ne_empty base
  have config := hasConfig_of_configured leads present configured
  have read := readText_of_standing leadsTree (plain_tree.unslashed_join present) planted
  have judged := judges_of_recordOf? read recordOf?_starterTree
  rw [← here] at config judged
  obtain ⟨status, same⟩ := check_of_asks (.project config)
  exact ⟨_, same.trans (checkFiles_of_accepted (.cons judged .nil) status)⟩

private theorem report_starterRecord :
    Metrics.report [starterRecord] =
      "{VAR:1, WHILE:0, IF:0, ENUM_VALUES:0, OP:1}\n" := by
  decide +kernel

private theorem findFrom_of_hasConfig {start : String} {config : Config}
    (has : machine.HasConfig (Path.ancestors start) config root) :
    (findFrom start : Simulated (Except Failure (Config × String))) machine =
      (.ok (config, root), machine) := by
  obtain ⟨outcome, ran, found⟩ := findAmong_spec (Path.ancestors start) machine
  rw [(found config root).mpr has] at ran
  exact ran

/-- A new project is checked from its directory, which some absolute path leads to. -/
theorem check_of_founds {after : Machine} {directory : String}
    (founds : Founds name base machine after) (held : machine.disk.HasDirectory base)
    (missing : machine.disk.standing? (treeLocation base) = none)
    (absolute : Path.isAbsolute directory = true) (leads : machine.Leads directory base)
    (room : Passable (Path.join directory "trees/main.toml")) :
    ∃ status, (check [] : Simulated Report) { after with workingDirectory := base } =
      ({ stdout := "{VAR:1, WHILE:0, IF:0, ENUM_VALUES:0, OP:1}\n", status },
        { after with workingDirectory := base }) := by
  obtain ⟨planted, trees⟩ := founds.planted missing
  have heldAfter := founds.keeps.directory base held
  have leadsAfter := leads.mono founds.keeps
  have roomConfig := room.join_of_le plain_tree plain_config (by decide) (by decide)
  have leadsConfig := plain_config.leads_absolutePath leadsAfter absolute roomConfig
    (by simpa [dropLast_config] using heldAfter) base
  have leadsTree := plain_tree.leads_absolutePath leadsAfter absolute room
    (by rw [dropLast_tree]; exact Disk.hasDirectory_iff.mpr trees) base
  rw [← report_starterRecord]
  exact check_of_planted rfl leadsConfig leadsTree founds.configured planted

end Check

/-- A directory that has a configuration is left alone. Of any other, `init` can make a project when
nothing stands in the way; it then adds the files of the project and nothing else, the project is
found from the directory and checks in it, and it is not made a second time. -/
theorem init_makes_project {machine after : Machine} {directory : String} {report : Report}
    (existing : machine.isDirectory directory = true)
    (ran : (init directory : Simulated Report) machine = (report, after)) :
    ∃ base, machine.Leads directory base ∧
      (machine.disk.standing? (configLocation base) ≠ none →
        report.failure ≠ none ∧ after = machine) ∧
      (machine.disk.standing? (configLocation base) = none →
        machine.disk.standing? (treesLocation base) = none →
        Passable (Path.join directory "trees/main.toml") → report.failure = none) ∧
      (report.failure = none →
        Founds (projectName directory) base machine after ∧
        (findFrom directory : Simulated (Except Failure (Config × String))) after =
          (.ok (Config.new (projectName directory), directory), after) ∧
        (∃ failure, (init directory : Simulated Report) after =
          ({ failure := some failure }, after)) ∧
        (machine.disk.standing? (treeLocation base) = none →
          (Path.isAbsolute directory = true ∨ ∃ other, Path.isAbsolute other = true ∧
            machine.Leads other base ∧ Passable (Path.join other "trees/main.toml")) →
          ∃ inside status, after.enter directory = .ok inside ∧
            (check [] : Simulated Report) inside =
              ({ stdout := "{VAR:1, WHILE:0, IF:0, ENUM_VALUES:0, OP:1}\n", status },
                inside))) := by
  obtain ⟨base, leads, held⟩ := isDirectory_iff.mp existing
  refine ⟨base, leads, fun configured => ?_, fun unconfigured missing passable => ?_,
    fun succeeded => ?_⟩
  · obtain ⟨failure, failed⟩ := init_of_configured leads configured
    rw [failed] at ran
    cases ran
    exact ⟨by simp, rfl⟩
  · have succeeds := init_of_missing leads held unconfigured missing passable
    rw [ran] at succeeds
    exact succeeds
  obtain ⟨founds, passable, room⟩ := founds_of_init leads held ran succeeded
  have leadsAfter := leads.mono founds.keeps
  have heldAfter := founds.keeps.directory base held
  have leadsConfig := plain_config.leads_join leadsAfter passable
    (by simpa [dropLast_config] using heldAfter)
  have config := hasConfig_of_configured leadsConfig leads.passable.present founds.configured
  refine ⟨founds, findFrom_of_hasConfig config,
    init_of_configured leadsAfter (by simp [founds.configured]), fun missing named => ?_⟩
  obtain ⟨other, absolute, leadsOther, roomOther⟩ : ∃ other, Path.isAbsolute other = true ∧
      machine.Leads other base ∧ Passable (Path.join other "trees/main.toml") := by
    obtain absolute | found := named
    · exact ⟨directory, absolute, leads, room missing⟩
    · exact found
  obtain ⟨status, checked⟩ := check_of_founds founds held missing absolute leadsOther roomOther
  exact ⟨_, status, enter_of_leads leadsAfter heldAfter, checked⟩

/-- A directory whose name holds a quote and a line feed, with a file beside it. -/
def oddMachine : Machine where
  disk := ⟨[("odd", .directory [("a\"\nb", .directory []), ("note", .file (.text ""))])]⟩

theorem init_makes_project_of_odd :
    ∃ report after, (init "/odd/a\"\nb/" : Simulated Report) oddMachine = (report, after) ∧
      report.failure = none ∧ Founds "a\"\nb" ["odd", "a\"\nb"] oddMachine after ∧
      ∃ inside status, after.enter "/odd/a\"\nb/" = .ok inside ∧
        (check [] : Simulated Report) inside =
          ({ stdout := "{VAR:1, WHILE:0, IF:0, ENUM_VALUES:0, OP:1}\n", status },
            inside) := by
  have ran := (Prod.eta ((init "/odd/a\"\nb/" : Simulated Report) oddMachine)).symm
  obtain ⟨base, leads, -, fresh, made⟩ := init_makes_project (by decide +kernel) ran
  have place : oddMachine.Leads "/odd/a\"\nb/" ["odd", "a\"\nb"] := ⟨_, _, rfl, rfl, rfl⟩
  obtain rfl := leads.unique place
  have unconfigured : oddMachine.disk.standing? (configLocation ["odd", "a\"\nb"]) = none := by
    decide +kernel
  have missing : oddMachine.disk.standing? (treesLocation ["odd", "a\"\nb"]) = none := by
    decide +kernel
  have treeless : oddMachine.disk.standing? (treeLocation ["odd", "a\"\nb"]) = none := by
    decide +kernel
  have passable : Passable (Path.join "/odd/a\"\nb/" "trees/main.toml") :=
    ⟨by decide +kernel, by decide +kernel, by decide +kernel⟩
  have succeeded := fresh unconfigured missing passable
  obtain ⟨founds, -, -, checks⟩ := made succeeded
  have name : projectName "/odd/a\"\nb/" = "a\"\nb" := by decide +kernel
  rw [name] at founds
  exact ⟨_, _, ran, succeeded, founds, checks treeless (.inl (by decide +kernel))⟩

end TreeCheck.Machine
