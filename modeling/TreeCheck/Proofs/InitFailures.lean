import TreeCheck.Proofs.InitProperties

/-!
# Projects that are not finished

The command `init` writes the configuration before it plants the tree, and it takes nothing back. If
it fails over the configuration, the machine is as it was. If it fails over the tree, the
configuration stays behind, and the directory counts as a project from then on. That happens where a
file stands in place of the directory for the trees, or where only the path of the configuration is
short enough.
-/

set_option autoImplicit false

namespace TreeCheck.Machine

open Command Project

variable {machine after : Machine} {directory path : String} {base location : Location}

/-! ## Directories that are there -/

/-- The directory is there, at the location. The empty path stands for the working directory. -/
structure Hosts (machine : Machine) (directory : String) (base : Location) : Prop where
  followed : ∃ trail, (machine.start directory).follow machine.disk (pathNames directory) =
    .ok trail ∧ trail.location = base
  held : machine.disk.HasDirectory base

/-- A path below a directory leads somewhere only if the directory is there. -/
theorem Plain.hosts_of_leads (plain : Plain path)
    (leads : machine.Leads (Path.join directory path) location) :
    ∃ base, machine.Hosts directory base ∧ location = base ++ pathNames path := by
  obtain ⟨-, reached, followed, rfl⟩ := leads_iff.mp leads
  rw [(plain.continues directory).start, (plain.continues directory).names] at followed
  obtain ⟨trail, front, onward⟩ := Trail.follow_eq_ok_append_iff.mp followed
  refine ⟨trail.location, ⟨⟨trail, front, rfl⟩, ?_⟩, ?_⟩
  · obtain ⟨name, rest, shape⟩ := List.exists_cons_of_ne_nil plain.named
    rw [shape] at onward
    obtain ⟨_, stepped, -⟩ := Trail.follow_eq_ok_cons_iff.mp onward
    obtain ⟨entries, found, -⟩ := Trail.step_eq_ok_iff.mp stepped
    have sound := (sound_start machine directory).follow front
    exact ⟨entries, (Trail.directory_eq_ok_iff sound).mp found⟩
  · rw [Trail.location_of_follow onward plain.noDots, plain.filter_pathNames]

namespace Hosts

theorem mono (hosts : machine.Hosts directory base) (keeps : machine.Keeps after) :
    after.Hosts directory base := by
  obtain ⟨⟨trail, followed, rfl⟩, held⟩ := hosts
  exact ⟨keeps.follow followed, keeps.directory _ held⟩

theorem leads (hosts : machine.Hosts directory base) (plain : Plain path)
    (passable : Passable (Path.join directory path))
    (holder : machine.disk.HasDirectory (base ++ (pathNames path).dropLast)) :
    machine.Leads (Path.join directory path) (base ++ pathNames path) := by
  obtain ⟨⟨trail, followed, rfl⟩, -⟩ := hosts
  have sound := (sound_start machine directory).follow followed
  obtain ⟨reached, onward, place⟩ := Trail.follow_of_hasDirectory sound plain.ordinary holder
  refine leads_iff.mpr ⟨passable, reached, ?_, place⟩
  rw [(plain.continues directory).start, (plain.continues directory).names]
  exact Trail.follow_eq_ok_append_iff.mpr ⟨trail, followed, onward⟩

end Hosts

private theorem writeText_of_long (machine : Machine) (noNul : '\x00' ∉ path.toList)
    (present : path ≠ "") (long : pathLimit ≤ path.utf8ByteSize) (content : String) :
    machine.writeText path content = .error .nameTooLong := by
  have refused : machine.route path = .error .nameTooLong := by
    simp [route, noNul, present, long]
  rw [writeText, writeFile, refused]
  rfl

/-! ## A tree that cannot be planted -/

/-- A directory stands at the location, or it is put there. -/
def Provides (location : Location) (machine after : Machine) : Prop :=
  (after = machine ∧ machine.disk.HasDirectory location) ∨
    (Puts .directory location machine after ∧ machine.disk.standing? location = none)

namespace Provides

theorem here (provides : Provides location machine after) : after.disk.HasDirectory location := by
  obtain ⟨rfl, held⟩ | ⟨puts, -⟩ := provides
  · exact held
  · exact Disk.hasDirectory_iff.mpr puts.here

theorem keeps (provides : Provides location machine after) : machine.Keeps after := by
  obtain ⟨rfl, -⟩ | ⟨puts, -⟩ := provides
  · exact ⟨rfl, fun _ held => held⟩
  · exact puts.keeps

theorem standing (provides : Provides location machine after) (place : Location) :
    after.disk.standing? place = machine.disk.standing? place ∨
      (place = location ∧ machine.disk.standing? place = none ∧
        after.disk.standing? place = some .directory) := by
  obtain ⟨rfl, -⟩ | ⟨puts, missing⟩ := provides
  · exact .inl rfl
  · by_cases same : place = location
    · subst same
      exact .inr ⟨rfl, missing, puts.here⟩
    · exact .inl (puts.elsewhere place same)

end Provides

/-- A directory that is asked for is provided unless a file stands in its place. -/
theorem ensureDirectory_of_leads {name : String} {outcome : Except DiskFault Unit}
    (leads : machine.Leads path location) (last : (pathNames path).getLast? = some name)
    (ordinary : Trail.IsOrdinary name)
    (ran : (Storage.ensureDirectory path : Simulated (Except DiskFault Unit)) machine =
      (outcome, after)) :
    (outcome = .ok () ∧ Provides location machine after) ∨
      (outcome = .error .alreadyExists ∧ after = machine ∧
        ∃ content, machine.disk.standing? location = some (.file content)) := by
  have made := makeDirectory_of_leads leads last ordinary
  cases standing : machine.disk.standing? location with
  | none =>
      rw [if_pos standing] at made
      rw [ensureDirectory_of_ok made] at ran
      cases ran
      obtain ⟨place, puts, leadsThere, missing⟩ := puts_of_makeDirectory made
      obtain rfl := leads.unique leadsThere
      exact .inl ⟨rfl, .inr ⟨puts, missing⟩⟩
  | some found =>
      rw [if_neg (by simp [standing])] at made
      rw [ensureDirectory_of_error made] at ran
      cases found with
      | directory =>
          have held := Disk.hasDirectory_iff.mpr standing
          rw [isDirectory_iff.mpr ⟨location, leads, held⟩] at ran
          cases ran
          exact .inl ⟨rfl, .inl ⟨rfl, held⟩⟩
      | file content =>
          have noDirectory : ¬ machine.isDirectory path = true := by
            intro there
            obtain ⟨place, leadsThere, held⟩ := isDirectory_iff.mp there
            obtain rfl := leads.unique leadsThere
            rw [Disk.hasDirectory_iff, standing] at held
            cases held
          rw [if_neg noDirectory] at ran
          cases ran
          exact .inr ⟨rfl, rfl, content, rfl⟩

private theorem makeParents_of_hosts {outcome : Except (String × DiskFault) Unit}
    (hosts : machine.Hosts directory base) (room : Passable (Path.join directory "trees"))
    (ran : (Storage.makeParents (Path.join directory "trees/main.toml") :
      Simulated (Except (String × DiskFault) Unit)) machine = (outcome, after)) :
    (outcome = .ok () ∧ Provides (treesLocation base) machine after) ∨
      (outcome = .error (Path.join directory "trees", .alreadyExists) ∧ after = machine ∧
        ∃ content, machine.disk.standing? (treesLocation base) = some (.file content)) := by
  have leads := hosts.leads plain_trees room (by simpa [dropLast_trees] using hosts.held)
  obtain ⟨name, last, ordinary⟩ := plain_trees.last_join directory
  rcases ensured : (Storage.ensureDirectory (Path.join directory "trees") :
    Simulated (Except DiskFault Unit)) machine with ⟨result, reached⟩
  obtain ⟨rfl, provides⟩ | ⟨rfl, rfl, blocked⟩ :=
    ensureDirectory_of_leads leads last ordinary ensured
  · rw [makeParents_of_ensureDirectory ensured (by simp)] at ran
    cases ran
    exact .inl ⟨rfl, provides⟩
  · rw [makeParents_of_ensureDirectory ensured (by simp)] at ran
    cases ran
    exact .inr ⟨rfl, rfl, blocked⟩

/-- Once its directory is provided, a tree that was not there is written if its path allows it. -/
theorem exists_writeText_tree {middle : Machine} (hosts : machine.Hosts directory base)
    (passable : Passable (Path.join directory "trees/main.toml"))
    (absent : machine.pathExists (Path.join directory "trees/main.toml") = false)
    (provides : Provides (treesLocation base) machine middle) (content : String) :
    ∃ after, middle.writeText (Path.join directory "trees/main.toml") content = .ok after := by
  have leads := (hosts.mono provides.keeps).leads plain_tree passable
    (by rw [dropLast_tree]; exact provides.here)
  obtain ⟨name, last, ordinary⟩ := plain_tree.last_join directory
  have unslashed := (plain_tree.continues directory).unslashed
  have missing : machine.disk.standing? (treeLocation base) = none := by
    by_contra standing
    have holder := Disk.hasDirectory_of_standing plain_tree.named standing
    have found := pathExists_of_standing (hosts.leads plain_tree passable holder) unslashed standing
    rw [absent] at found
    cases found
  have free : ¬ middle.disk.HasDirectory (treeLocation base) := by
    obtain same | ⟨same, -, -⟩ := provides.standing (treeLocation base)
    · rw [Disk.hasDirectory_iff, same, missing]
      simp
    · exact absurd same.symm (treesLocation_ne_treeLocation base)
  exact exists_writeText leads unslashed last ordinary free content

/-- Why a tree is not planted in a directory that is there, and what is done until then. -/
theorem plantTree_of_failure {failure : Failure} (hosts : machine.Hosts directory base)
    (room : Passable (Path.join directory "trees"))
    (ran : (plantTree (Path.join directory "trees/main.toml") :
      Simulated (Except Failure Unit)) machine = (.error failure, after)) :
    (failure = .create (Path.join directory "trees") .alreadyExists ∧ after = machine ∧
        ∃ content, machine.disk.standing? (treesLocation base) = some (.file content)) ∨
      (failure = .create (Path.join directory "trees/main.toml") .nameTooLong ∧
        pathLimit ≤ (Path.join directory "trees/main.toml").utf8ByteSize ∧
        Provides (treesLocation base) machine after) := by
  cases absent : machine.pathExists (Path.join directory "trees/main.toml") with
  | true =>
      simp only [plantTree, run_bind, run_pathExists, absent] at ran
      cases ran
  | false =>
      simp only [plantTree, run_bind, run_pathExists, absent, Bool.false_eq_true, if_false] at ran
      rcases made : (Storage.makeParents (Path.join directory "trees/main.toml") :
        Simulated (Except (String × DiskFault) Unit)) machine with ⟨outcome, middle⟩
      simp only [made] at ran
      obtain ⟨rfl, provides⟩ | ⟨rfl, rfl, blocked⟩ := makeParents_of_hosts hosts room made
      · have noNul := room.noNul_join plain_trees plain_tree (by decide)
        have present := (plain_tree.continues directory).present
        have long : pathLimit ≤ (Path.join directory "trees/main.toml").utf8ByteSize := by
          by_contra short
          obtain ⟨reached, written⟩ :=
            exists_writeText_tree hosts ⟨noNul, present, by omega⟩ absent provides starterTree
          simp only [run_bind, run_writeText, update, written] at ran
          cases ran
        have unwritten := middle.writeText_of_long noNul present long starterTree
        simp only [run_bind, run_writeText, update, unwritten] at ran
        cases ran
        exact .inr ⟨rfl, long, provides⟩
      · cases ran
        exact .inl ⟨rfl, rfl, blocked⟩

/-! ## A project that is left half-made -/

/-- Of a project with this name only the configuration is made, and perhaps the directory for its
trees. -/
structure Strands (name : String) (base : Location) (machine after : Machine) : Prop where
  workingDirectory : after.workingDirectory = machine.workingDirectory
  unconfigured : machine.disk.standing? (configLocation base) = none
  configured : after.disk.standing? (configLocation base) =
    some (.file (.text (Config.new name).render))
  elsewhere : ∀ location, location ≠ configLocation base →
    after.disk.standing? location = machine.disk.standing? location ∨
      (location = treesLocation base ∧ machine.disk.standing? location = none ∧
        after.disk.standing? location = some .directory)

/-- Why no tree is planted: a file stands in place of its directory, or its path is too long while
that of its directory is not. -/
inductive Unplanted (directory : String) (base : Location) (machine after : Machine) :
    Failure → Prop
  | occupied {content : Content} :
      machine.disk.standing? (treesLocation base) = some (.file content) →
      Unplanted directory base machine after
        (.create (Path.join directory "trees") .alreadyExists)
  | long :
      pathLimit ≤ (Path.join directory "trees/main.toml").utf8ByteSize →
      after.disk.standing? (treesLocation base) = some .directory →
      Unplanted directory base machine after
        (.create (Path.join directory "trees/main.toml") .nameTooLong)

private theorem strands_of_puts {name : String} {middle : Machine}
    (puts : Puts (.file (.text (Config.new name).render)) (configLocation base) machine middle)
    (unconfigured : machine.disk.standing? (configLocation base) = none)
    (grown : after = middle ∨ Provides (treesLocation base) middle after) :
    Strands name base machine after := by
  have keeps : middle.Keeps after := by
    obtain rfl | provides := grown
    · exact ⟨rfl, fun _ held => held⟩
    · exact provides.keeps
  have standing (place : Location) :
      after.disk.standing? place = middle.disk.standing? place ∨
        (place = treesLocation base ∧ middle.disk.standing? place = none ∧
          after.disk.standing? place = some .directory) := by
    obtain rfl | provides := grown
    · exact .inl rfl
    · exact provides.standing place
  refine ⟨keeps.workingDirectory.trans puts.workingDirectory, unconfigured, ?_,
    fun location differs => ?_⟩
  · obtain same | ⟨same, -, -⟩ := standing (configLocation base)
    · exact same.trans puts.here
    · exact absurd same (configLocation_ne base).2
  · rw [← puts.elsewhere location differs]
    exact standing location

/-- Nothing that stood anywhere is lost. -/
theorem Strands.kept {name : String} (strands : Strands name base machine after)
    {standing : Standing} (stood : machine.disk.standing? location = some standing) :
    after.disk.standing? location = some standing := by
  have differs : location ≠ configLocation base := by
    intro same
    rw [same, strands.unconfigured] at stood
    cases stood
  obtain same | ⟨-, missing, -⟩ := strands.elsewhere location differs
  · exact same.trans stood
  · rw [missing] at stood
    cases stood

theorem Strands.keeps {name : String} (strands : Strands name base machine after) :
    machine.Keeps after where
  workingDirectory := strands.workingDirectory
  directory _ held := Disk.hasDirectory_iff.mpr (strands.kept (Disk.hasDirectory_iff.mp held))

/-- What `init` has done when it fails. -/
theorem init_of_failure {report : Report} {failure : Failure}
    (ran : (init directory : Simulated Report) machine = (report, after))
    (failed : report.failure = some failure) :
    (after = machine ∧ failure = .projectExists directory ∧
        machine.pathExists (Path.join directory Config.fileName) = true) ∨
      (after = machine ∧ ∃ fault, failure = .write (Path.join directory Config.fileName) fault) ∨
      ∃ middle, machine.pathExists (Path.join directory Config.fileName) = false ∧
        machine.writeText (Path.join directory Config.fileName)
          (Config.new (projectName directory)).render = .ok middle ∧
        (plantTree (Path.join directory "trees/main.toml") : Simulated (Except Failure Unit))
          middle = (.error failure, after) := by
  cases there : machine.pathExists (Path.join directory Config.fileName) with
  | true =>
      simp only [init, run_bind, run_pathExists, there] at ran
      cases ran
      cases failed
      exact .inl ⟨rfl, rfl, rfl⟩
  | false =>
      simp only [init, run_bind, run_pathExists, there, Bool.false_eq_true, if_false,
        saveConfig_run] at ran
      cases written : machine.writeText (Path.join directory Config.fileName)
          (Config.new (projectName directory)).render with
      | error fault =>
          unfold projectName at written
          simp only [written] at ran
          cases ran
          cases failed
          exact .inr (.inl ⟨rfl, fault, rfl⟩)
      | ok middle =>
          refine .inr (.inr ⟨middle, rfl, rfl, ?_⟩)
          unfold projectName at written
          simp only [written, treePaths_new, plantTrees, run_bind] at ran
          rcases planted : (plantTree (Path.join directory "trees/main.toml") :
            Simulated (Except Failure Unit)) middle with ⟨outcome, reached⟩
          simp only [planted] at ran
          cases outcome with
          | error cause =>
              cases ran
              cases failed
              rfl
          | ok _ =>
              cases ran
              cases failed

/-- A directory with a configuration that its path finds is refused. -/
theorem init_of_hosts (hosts : machine.Hosts directory base)
    (passable : Passable (Path.join directory Config.fileName))
    (configured : machine.disk.standing? (configLocation base) ≠ none) :
    (init directory : Simulated Report) machine =
      ({ failure := some (.projectExists directory) }, machine) := by
  have leads := hosts.leads plain_config passable (by simpa [dropLast_config] using hosts.held)
  have there := pathExists_of_standing leads (plain_config.continues directory).unslashed configured
  simp [init, there]

/-- A failed `init` takes nothing away. If a configuration is there or none can be written, all is
as it was. Otherwise no tree could be planted: the new configuration stays behind, perhaps with an
empty directory for the trees, and the directory is refused from then on. -/
theorem failed_init_leaves {machine after : Machine} {directory : String} {report : Report}
    {failure : Failure} (ran : (init directory : Simulated Report) machine = (report, after))
    (failed : report.failure = some failure) :
    (∀ location standing, machine.disk.standing? location = some standing →
        after.disk.standing? location = some standing) ∧
      ((after = machine ∧
          (failure = .projectExists directory ∧
              machine.pathExists (Path.join directory Config.fileName) = true ∨
            ∃ fault, failure = .write (Path.join directory Config.fileName) fault)) ∨
        ∃ base, machine.Hosts directory base ∧
          Strands (projectName directory) base machine after ∧
          Unplanted directory base machine after failure ∧
          (init directory : Simulated Report) after =
            ({ failure := some (.projectExists directory) }, after)) := by
  obtain ⟨rfl, rfl, there⟩ | ⟨rfl, fault, rfl⟩ | ⟨middle, absent, written, planted⟩ :=
    init_of_failure ran failed
  · exact ⟨fun _ _ stood => stood, .inl ⟨rfl, .inl ⟨rfl, there⟩⟩⟩
  · exact ⟨fun _ _ stood => stood, .inl ⟨rfl, .inr ⟨fault, rfl⟩⟩⟩
  obtain ⟨place, puts, leads⟩ := puts_of_writeText written
  obtain ⟨base, hosts, rfl⟩ := plain_config.hosts_of_leads leads
  have unconfigured : machine.disk.standing? (configLocation base) = none := by
    by_contra standing
    have found := pathExists_of_standing leads (plain_config.continues directory).unslashed standing
    rw [absent] at found
    cases found
  have trees := puts.elsewhere _ (configLocation_ne base).2.symm
  have room := leads.passable.join_of_le plain_config plain_trees (by decide) (by decide)
  obtain ⟨strands, cause⟩ : Strands (projectName directory) base machine after ∧
      Unplanted directory base machine after failure := by
    obtain ⟨rfl, rfl, content, blocked⟩ | ⟨rfl, long, provides⟩ :=
      plantTree_of_failure (hosts.mono puts.keeps) room planted
    · exact ⟨strands_of_puts puts unconfigured (.inl rfl), .occupied (trees.symm.trans blocked)⟩
    · exact ⟨strands_of_puts puts unconfigured (.inr provides),
        .long long (Disk.hasDirectory_iff.mp provides.here)⟩
  have refused := init_of_hosts (hosts.mono strands.keeps) leads.passable
    (by simp [strands.configured])
  exact ⟨fun _ _ stood => strands.kept stood, .inr ⟨base, hosts, strands, cause, refused⟩⟩

/-- A directory in which a file stands in place of the directory for the trees. -/
def blockedMachine : Machine where
  disk := ⟨[("p", .directory [("trees", .file (.text "x"))])]⟩

theorem failed_init_leaves_blocked :
    ∃ report after failure, (init "/p" : Simulated Report) blockedMachine = (report, after) ∧
      report.failure = some failure ∧
      ∃ base, blockedMachine.Hosts "/p" base ∧ Strands "p" base blockedMachine after ∧
        Unplanted "/p" base blockedMachine after failure := by
  have ran := (Prod.eta ((init "/p" : Simulated Report) blockedMachine)).symm
  obtain ⟨failure, failed⟩ := Option.isSome_iff_exists.mp
    (by decide +kernel : ((init "/p" : Simulated Report) blockedMachine).1.failure.isSome = true)
  have name : projectName "/p" = "p" := by decide +kernel
  obtain ⟨-, ⟨same, -⟩ | ⟨base, hosts, strands, cause, -⟩⟩ := failed_init_leaves ran failed
  · have left : (((init "/p" : Simulated Report) blockedMachine).2.disk.standing?
        (configLocation ["p"])).isSome = true := by decide +kernel
    rw [same] at left
    exact absurd left (by decide +kernel)
  · rw [name] at strands
    exact ⟨_, _, failure, ran, failed, base, hosts, strands, cause⟩

/-- Where a file is in the way of the trees, `init` fails and yet leaves a configuration that was
not there, so that it fails for another reason the next time. -/
theorem failed_init_configures :
    ∃ report after, (init "/p" : Simulated Report) blockedMachine = (report, after) ∧
      report.failure.map Failure.chain =
        some ["Failed to create /p/trees", "File exists (os error 17)"] ∧
      blockedMachine.disk.standing? ["p", "sema.toml"] = none ∧
      after.disk.standing? ["p", "sema.toml"] = some (.file (.text (Config.new "p").render)) ∧
      ((init "/p" : Simulated Report) after).1.failure.map Failure.chain =
        some ["sema.toml already exists in /p"] := by
  refine ⟨_, _, (Prod.eta ((init "/p" : Simulated Report) blockedMachine)).symm, ?_, ?_, ?_, ?_⟩
  · decide +kernel
  · decide +kernel
  · decide +kernel
  · decide +kernel

end TreeCheck.Machine
