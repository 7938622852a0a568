import TreeCheck.Proofs.PathLocations

/-!
# What changes on a disk

`Disk.standing?` tells for every location whether a file, with its content, or a directory stands
there. A file that is written and a directory that is made change it at one location, the one the
path leads to, and the directories made above a file change it only where the paths above the file
lead.
-/

set_option autoImplicit false

namespace TreeCheck

/-! ## What stands at a location -/

/-- A file or a directory, regardless of what is in the directory. -/
inductive Standing
  | file (content : Content)
  | directory
deriving DecidableEq, Repr

namespace Entry

def standing : Entry → Standing
  | .file content => .file content
  | .directory _ => .directory

/-- Nothing is below the entry. -/
def Bare : Entry → Prop
  | .file _ => True
  | .directory entries => entries = []

end Entry

namespace Entries

variable {entries : Entries} {name next : String} {location other rest : Location} {entry : Entry}

private theorem get?_bind_of_bare (bare : entry.Bare) :
    (entries.bind name entry).get? (name :: next :: rest) = none := by
  cases entry with
  | file content => simp [get?, lookup_bind_self]
  | directory below =>
      obtain rfl : below = [] := bare
      simp [get?, lookup_bind_self]

private theorem get?_of_not_directory
    (missing : ∀ below, entries.lookup name ≠ some (.directory below)) :
    entries.get? (name :: next :: rest) = none := by
  cases found : entries.lookup name with
  | none => simp [get?, found]
  | some bound =>
      cases bound with
      | file content => simp [get?, found]
      | directory below => exact absurd found (missing below)

/-- What is put where there is no directory leaves every other location as it was. -/
theorem standing_put_of_ne (bare : entry.Bare)
    (free : ∀ inner, entries.get? location ≠ some (.directory inner)) (differs : other ≠ location) :
    ((put entry location entries).get? other).map Entry.standing =
      (entries.get? other).map Entry.standing := by
  induction location generalizing entries other with
  | nil => exact absurd (get?_nil entries) (free entries)
  | cons name rest ih =>
      cases other with
      | nil => rfl
      | cons first more =>
          cases rest with
          | nil =>
              have unbound : ∀ below, entries.lookup name ≠ some (.directory below) := by
                simpa [get?_singleton] using free
              by_cases same : first = name
              · subst same
                obtain ⟨next, more, rfl⟩ : ∃ next others, more = next :: others :=
                  List.exists_cons_of_ne_nil (by simpa using differs)
                rw [put, get?_bind_of_bare bare, get?_of_not_directory unbound]
              · rw [put, get?_bind_of_ne same]
          | cons next rest =>
              by_cases through : ∃ beyond, entries.lookup name = some (.directory beyond)
              · obtain ⟨beyond, bound⟩ := through
                rw [put_of_directory bound]
                by_cases same : first = name
                · subst same
                  rw [get?_of_directory (lookup_bind_self entries first _),
                    get?_of_directory bound]
                  exact ih (by simpa [get?_of_directory bound] using free) (by simpa using differs)
                · rw [get?_bind_of_ne same]
              · rw [put_of_not_directory fun beyond bound => through ⟨beyond, bound⟩]

end Entries

namespace Disk

variable {disk : Disk} {location other : Location} {entry : Entry}

/-- Whether a file or a directory stands at a location. -/
def standing? (disk : Disk) (location : Location) : Option Standing :=
  (disk.get? location).map Entry.standing

theorem hasDirectory_iff :
    disk.HasDirectory location ↔ disk.standing? location = some .directory := by
  unfold HasDirectory standing?
  cases disk.get? location with
  | none => simp
  | some entry => cases entry <;> simp [Entry.standing]

private theorem standing?_eq_file_iff {content : Content} :
    disk.standing? location = some (.file content) ↔
      disk.get? location = some (.file content) := by
  unfold standing?
  cases disk.get? location with
  | none => simp
  | some entry => cases entry <;> simp [Entry.standing]

private theorem standing?_put_of_ne (bare : entry.Bare) (free : ¬ disk.HasDirectory location)
    (differs : other ≠ location) :
    (disk.put location entry).standing? other = disk.standing? other :=
  Entries.standing_put_of_ne bare (fun inner held => free ⟨inner, held⟩) differs

/-- What stands at a location stands in a directory. -/
theorem hasDirectory_of_standing {base : Location} {names : List String} (named : names ≠ [])
    (standing : disk.standing? (base ++ names) ≠ none) :
    disk.HasDirectory (base ++ names.dropLast) := by
  have split : base ++ names = base ++ names.dropLast ++ [names.getLast named] := by
    rw [List.append_assoc, List.dropLast_concat_getLast]
  cases held : disk.get? (base ++ names) with
  | none => simp [standing?, held] at standing
  | some entry =>
      rw [split] at held
      exact Entries.holder_of_get? held

end Disk

namespace Machine

variable {machine after : Machine} {path : String} {location : Location}

/-! ## What is found -/

private theorem find_eq_ok_iff {entry : Entry} :
    machine.find path = .ok entry ↔
      ∃ location, machine.Leads path location ∧ machine.disk.get? location = some entry ∧
        (path.toList.getLast? = some '/' → entry.standing = .directory) := by
  unfold find
  constructor
  · intro found
    dsimp only [bind, Except.bind] at found
    split at found
    · cases found
    rename_i route routed
    split at found
    · cases found
    rename_i trail followed
    have leads : machine.Leads path trail.location := ⟨route, trail, routed, followed, rfl⟩
    obtain ⟨-, rfl⟩ := route_eq_ok_iff.mp routed
    rw [trail_routeOf] at followed
    rw [((sound_start machine path).follow followed).target?] at found
    refine ⟨trail.location, leads, ?_⟩
    split at found
    · cases found
    · rename_i entries held
      cases found
      exact ⟨held, fun _ => rfl⟩
    · rename_i file held
      split at found
      · cases found
      · rename_i untrailed
        cases found
        refine ⟨held, fun slash => absurd ?_ untrailed⟩
        simpa [routeOf] using slash
  · rintro ⟨location, leads, held, slashed⟩
    obtain ⟨passable, trail, followed, rfl⟩ := leads_iff.mp leads
    have target := ((sound_start machine path).follow followed).target?
    rw [machine.route_of_passable passable]
    dsimp only [bind, Except.bind]
    rw [trail_routeOf, followed]
    dsimp only
    rw [target, held]
    cases entry with
    | directory entries => rfl
    | file content =>
        have unslashed : path.toList.getLast? ≠ some '/' := fun slash => by cases slashed slash
        have untrailed : (machine.routeOf path).trailing = false := by
          simpa [routeOf] using unslashed
        simp [untrailed, pure, Except.pure]

theorem isDirectory_iff :
    machine.isDirectory path = true ↔
      ∃ location, machine.Leads path location ∧ machine.disk.HasDirectory location := by
  unfold isDirectory
  constructor
  · intro found
    split at found
    · rename_i entries held
      obtain ⟨location, leads, standing, -⟩ := find_eq_ok_iff.mp held
      exact ⟨location, leads, entries, standing⟩
    · cases found
  · rintro ⟨location, leads, entries, held⟩
    have found := find_eq_ok_iff.mpr ⟨location, leads, held, fun _ => rfl⟩
    rw [found]

theorem standing_of_pathExists (found : machine.pathExists path = true) :
    ∃ location, machine.Leads path location ∧ machine.disk.standing? location ≠ none := by
  unfold pathExists at found
  cases held : machine.find path with
  | error fault => simp [held, Except.toBool] at found
  | ok entry =>
      obtain ⟨location, leads, standing, -⟩ := find_eq_ok_iff.mp held
      exact ⟨location, leads, by simp [Disk.standing?, standing]⟩

theorem pathExists_of_standing (leads : machine.Leads path location)
    (unslashed : path.toList.getLast? ≠ some '/')
    (standing : machine.disk.standing? location ≠ none) : machine.pathExists path = true := by
  cases held : machine.disk.get? location with
  | none => simp [Disk.standing?, held] at standing
  | some entry =>
      have found := find_eq_ok_iff.mpr ⟨location, leads, held, fun slash => absurd slash unslashed⟩
      rw [pathExists, found]
      rfl

/-- A path below a directory finds what stands there. -/
theorem Plain.pathExists_join {directory : String} {base : Location} (plain : Plain path)
    (leads : machine.Leads directory base) (passable : Passable (Path.join directory path)) :
    machine.pathExists (Path.join directory path) =
      (machine.disk.standing? (base ++ pathNames path)).isSome := by
  rw [Bool.eq_iff_iff, Option.isSome_iff_ne_none]
  constructor
  · intro found
    obtain ⟨place, leadsBelow, standing⟩ := standing_of_pathExists found
    rw [plain.eq_of_leads_join leads leadsBelow] at standing
    exact standing
  · intro standing
    have holder := Disk.hasDirectory_of_standing plain.named standing
    exact pathExists_of_standing (plain.leads_join leads passable holder)
      (plain.unslashed_join leads.passable.present) standing

theorem readText_of_standing {content : String} (leads : machine.Leads path location)
    (unslashed : path.toList.getLast? ≠ some '/')
    (standing : machine.disk.standing? location = some (.file (.text content))) :
    machine.readText path = .ok content := by
  have held := Disk.standing?_eq_file_iff.mp standing
  have found := find_eq_ok_iff.mpr ⟨location, leads, held, fun slash => absurd slash unslashed⟩
  rw [readText, found]
  rfl

/-! ## What is changed -/

/-- An entry is put at the location: it stands there now, and all else is as it was. -/
structure Puts (standing : Standing) (location : Location) (machine after : Machine) : Prop where
  workingDirectory : after.workingDirectory = machine.workingDirectory
  free : ¬ machine.disk.HasDirectory location
  here : after.disk.standing? location = some standing
  elsewhere : ∀ other, other ≠ location → after.disk.standing? other = machine.disk.standing? other

theorem Puts.keeps {standing : Standing} (puts : Puts standing location machine after) :
    machine.Keeps after where
  workingDirectory := puts.workingDirectory
  directory place held := by
    have differs : place ≠ location := fun same => puts.free (same ▸ held)
    rw [Disk.hasDirectory_iff] at held ⊢
    rw [puts.elsewhere place differs, held]

private theorem puts_put {name : String} {entry : Entry} (bare : entry.Bare)
    (holder : machine.disk.HasDirectory location)
    (free : ¬ machine.disk.HasDirectory (location ++ [name])) :
    Puts entry.standing (location ++ [name]) machine
      { machine with disk := machine.disk.put (location ++ [name]) entry } where
  workingDirectory := rfl
  free := free
  here := by
    obtain ⟨entries, found⟩ := holder
    have held := Entries.get?_put_self entry name found
    exact congrArg (Option.map Entry.standing) held
  elsewhere _ differs := Disk.standing?_put_of_ne bare free differs

theorem puts_of_writeText {content : String}
    (written : machine.writeText path content = .ok after) :
    ∃ place, Puts (.file (.text content)) place machine after ∧ machine.Leads path place := by
  obtain ⟨slot, free, rfl⟩ := slot_of_writeFile written
  have bare : (Entry.file (.text content)).Bare := trivial
  exact ⟨slot.location, puts_put bare ⟨_, slot.get?_holder⟩ free, slot.leads⟩

theorem puts_of_makeDirectory (made : machine.makeDirectory path = .ok after) :
    ∃ place, Puts .directory place machine after ∧ machine.Leads path place ∧
      machine.disk.standing? place = none := by
  unfold makeDirectory at made
  dsimp only [bind, Except.bind] at made
  split at made
  · cases made
  rename_i route routed
  split at made
  · cases made
  rename_i trail followed
  have leads : machine.Leads path trail.location := ⟨route, trail, routed, followed, rfl⟩
  split at made
  · cases made
  rename_i undotted
  obtain ⟨name, last, noDot, noDots⟩ := last_of_isDotted (by simpa using undotted)
  unfold Machine.trail at followed
  dsimp only [bind, Except.bind] at followed
  split at followed
  · cases followed
  rename_i holder held
  rw [last, Option.toList_some, Trail.follow_singleton] at followed
  obtain ⟨entries, found, -, rfl⟩ := Trail.step_eq_ok_iff.mp followed
  obtain ⟨-, rfl⟩ := route_eq_ok_iff.mp routed
  have sound := (sound_start machine path).follow held
  have standing := (Trail.directory_eq_ok_iff sound).mp found
  rw [Trail.next, if_neg noDot, if_neg noDots] at made leads
  rw [Trail.location_cons] at made leads
  rw [Trail.target?_cons, ← Entries.get?_concat standing name] at made
  split at made
  · cases made
  · rename_i missing
    cases made
    have bare : (Entry.directory []).Bare := rfl
    have none : machine.disk.standing? (holder.location ++ [name]) = none :=
      congrArg (Option.map Entry.standing) missing
    have free : ¬ machine.disk.HasDirectory (holder.location ++ [name]) := by
      rw [Disk.hasDirectory_iff, none]
      simp
    exact ⟨_, puts_put bare ⟨_, standing⟩ free, leads, none⟩

private theorem isDotted_of_last {name : String} (last : (pathNames path).getLast? = some name)
    (ordinary : Trail.IsOrdinary name) : (machine.routeOf path).isDotted = false := by
  simp [Route.isDotted, routeOf, last, ordinary.noDot, ordinary.noDots]

theorem makeDirectory_of_leads {name : String} (leads : machine.Leads path location)
    (last : (pathNames path).getLast? = some name) (ordinary : Trail.IsOrdinary name) :
    machine.makeDirectory path =
      if machine.disk.standing? location = none then
        .ok { machine with disk := machine.disk.put location (.directory []) }
      else .error .alreadyExists := by
  obtain ⟨passable, trail, followed, rfl⟩ := leads_iff.mp leads
  unfold makeDirectory Disk.standing?
  rw [machine.route_of_passable passable]
  dsimp only [bind, Except.bind]
  rw [trail_routeOf, followed]
  dsimp only
  rw [isDotted_of_last last ordinary, ((sound_start machine path).follow followed).target?]
  cases machine.disk.get? trail.location <;> rfl

theorem exists_writeText {name : String} (leads : machine.Leads path location)
    (unslashed : path.toList.getLast? ≠ some '/') (last : (pathNames path).getLast? = some name)
    (ordinary : Trail.IsOrdinary name) (free : ¬ machine.disk.HasDirectory location)
    (content : String) : ∃ after, machine.writeText path content = .ok after := by
  obtain ⟨passable, trail, followed, rfl⟩ := leads_iff.mp leads
  have sound := (sound_start machine path).follow followed
  have undotted : (machine.routeOf path).isDotted = false := isDotted_of_last last ordinary
  have untrailed : (machine.routeOf path).trailing = false := by simpa [routeOf] using unslashed
  rw [← trail_routeOf, Machine.trail] at followed
  cases held : machine.holder (machine.routeOf path) with
  | error fault =>
      rw [held] at followed
      cases followed
  | ok holder =>
      rw [held] at followed
      change holder.follow machine.disk (machine.routeOf path).last.toList = _ at followed
      have stepped := followed
      rw [routeOf, last, Option.toList_some, Trail.follow_singleton] at stepped
      obtain ⟨entries, found, -⟩ := Trail.step_eq_ok_iff.mp stepped
      unfold writeText writeFile
      rw [machine.route_of_passable passable]
      dsimp only [bind, Except.bind]
      rw [held]
      dsimp only
      rw [found]
      dsimp only
      rw [untrailed, undotted]
      dsimp only [pure, Except.pure]
      rw [if_neg (by decide), followed]
      dsimp only
      rw [sound.target?]
      split
      · rename_i entries standing
        exact absurd ⟨entries, standing⟩ free
      · exact ⟨_, rfl⟩

section Below

variable {directory : String} {base : Location}

theorem Plain.puts_of_writeText {content : String} (plain : Plain path)
    (leads : machine.Leads directory base)
    (written : machine.writeText (Path.join directory path) content = .ok after) :
    Puts (.file (.text content)) (base ++ pathNames path) machine after ∧
      Passable (Path.join directory path) := by
  obtain ⟨place, puts, leadsBelow⟩ := Machine.puts_of_writeText written
  rw [plain.eq_of_leads_join leads leadsBelow] at puts
  exact ⟨puts, leadsBelow.passable⟩

theorem Plain.puts_of_makeDirectory (plain : Plain path) (leads : machine.Leads directory base)
    (made : machine.makeDirectory (Path.join directory path) = .ok after) :
    Puts .directory (base ++ pathNames path) machine after ∧
      machine.disk.standing? (base ++ pathNames path) = none := by
  obtain ⟨place, puts, leadsBelow, missing⟩ := Machine.puts_of_makeDirectory made
  rw [plain.eq_of_leads_join leads leadsBelow] at puts missing
  exact ⟨puts, missing⟩

theorem Plain.exists_writeText (plain : Plain path) (leads : machine.Leads directory base)
    (passable : Passable (Path.join directory path))
    (holder : machine.disk.HasDirectory (base ++ (pathNames path).dropLast))
    (missing : machine.disk.standing? (base ++ pathNames path) = none) (content : String) :
    ∃ after, machine.writeText (Path.join directory path) content = .ok after := by
  have present := leads.passable.present
  obtain ⟨name, last, ordinary⟩ := plain.last_join directory
  have free : ¬ machine.disk.HasDirectory (base ++ pathNames path) := by
    simp [Disk.hasDirectory_iff, missing]
  exact Machine.exists_writeText (plain.leads_join leads passable holder)
    (plain.unslashed_join present) last ordinary free content

theorem Plain.makeDirectory_join (plain : Plain path) (leads : machine.Leads directory base)
    (passable : Passable (Path.join directory path))
    (holder : machine.disk.HasDirectory (base ++ (pathNames path).dropLast)) :
    machine.makeDirectory (Path.join directory path) =
      if machine.disk.standing? (base ++ pathNames path) = none then
        .ok { machine with disk := machine.disk.put (base ++ pathNames path) (.directory []) }
      else .error .alreadyExists := by
  obtain ⟨name, last, ordinary⟩ := plain.last_join directory
  exact makeDirectory_of_leads (plain.leads_join leads passable holder) last ordinary

/-- Making a directory below one that exists never fails for want of it. -/
theorem Plain.makeDirectory_ne_notFound (plain : Plain path) (leads : machine.Leads directory base)
    (holder : machine.disk.HasDirectory (base ++ (pathNames path).dropLast)) :
    machine.makeDirectory (Path.join directory path) ≠ .error .notFound := by
  by_cases passable : Passable (Path.join directory path)
  · rw [plain.makeDirectory_join leads passable holder]
    split <;> simp
  · obtain ⟨fault, refused, other⟩ :=
      machine.route_of_not_passable (plain.join_ne_empty leads.passable.present) passable
    rw [makeDirectory, refused]
    simpa [bind, Except.bind] using other

end Below

/-! ## Directories that appear -/

/-- Nothing changes but that directories appear where some of the paths lead. -/
structure Grows (paths : List String) (machine after : Machine) : Prop where
  workingDirectory : after.workingDirectory = machine.workingDirectory
  standing : ∀ location, after.disk.standing? location = machine.disk.standing? location ∨
    (machine.disk.standing? location = none ∧ after.disk.standing? location = some .directory ∧
      ∃ path ∈ paths, after.Leads path location)

namespace Grows

variable {paths more : List String} {later : Machine}

theorem refl (paths : List String) (machine : Machine) : Grows paths machine machine :=
  ⟨rfl, fun _ => .inl rfl⟩

theorem keeps (grows : Grows paths machine after) : machine.Keeps after where
  workingDirectory := grows.workingDirectory
  directory place held := by
    rw [Disk.hasDirectory_iff] at held ⊢
    obtain same | ⟨missing, -, -⟩ := grows.standing place
    · rw [same, held]
    · rw [missing] at held
      cases held

theorem trans (grows : Grows paths machine after) (growsOn : Grows paths after later) :
    Grows paths machine later where
  workingDirectory := growsOn.workingDirectory.trans grows.workingDirectory
  standing location := by
    obtain same | ⟨missing, made, path, member, leads⟩ := grows.standing location
    · obtain sameOn | ⟨missingOn, others⟩ := growsOn.standing location
      · exact .inl (sameOn.trans same)
      · exact .inr ⟨same.symm.trans missingOn, others⟩
    · obtain sameOn | ⟨missingOn, -⟩ := growsOn.standing location
      · exact .inr ⟨missing, sameOn.trans made, path, member, leads.mono growsOn.keeps⟩
      · rw [made] at missingOn
        cases missingOn

theorem subset (grows : Grows paths machine after) (within : paths ⊆ more) :
    Grows more machine after where
  workingDirectory := grows.workingDirectory
  standing location := by
    obtain same | ⟨missing, made, path, member, leads⟩ := grows.standing location
    · exact .inl same
    · exact .inr ⟨missing, made, path, within member, leads⟩

end Grows

/-! ## Running commands -/

section Run

variable {α β : Type}

@[simp] theorem run_pure (value : α) (machine : Machine) :
    (pure value : Simulated α) machine = (value, machine) := rfl

@[simp] theorem run_bind (first : Simulated α) (next : α → Simulated β) (machine : Machine) :
    (first >>= next) machine = next (first machine).1 (first machine).2 := rfl

@[simp] theorem run_workingDirectory (machine : Machine) :
    (Storage.workingDirectory : Simulated String) machine =
      (absolutePath machine.workingDirectory, machine) := rfl

@[simp] theorem run_readText (path : String) (machine : Machine) :
    (Storage.readText path : Simulated (Except DiskFault String)) machine =
      (machine.readText path, machine) := rfl

@[simp] theorem run_isDirectory (path : String) (machine : Machine) :
    (Storage.isDirectory path : Simulated Bool) machine = (machine.isDirectory path, machine) := rfl

@[simp] theorem run_pathExists (path : String) (machine : Machine) :
    (Storage.pathExists path : Simulated Bool) machine = (machine.pathExists path, machine) := rfl

@[simp] theorem run_writeText (path content : String) (machine : Machine) :
    (Storage.writeText path content : Simulated (Except DiskFault Unit)) machine =
      update (·.writeText path content) machine := rfl

@[simp] theorem run_makeDirectory (path : String) (machine : Machine) :
    (Storage.makeDirectory path : Simulated (Except DiskFault Unit)) machine =
      update (·.makeDirectory path) machine := rfl

end Run

open Storage

theorem ensureDirectory_of_ok (made : machine.makeDirectory path = .ok after) :
    (ensureDirectory path : Simulated (Except DiskFault Unit)) machine = (.ok (), after) := by
  simp [ensureDirectory, update, made]

theorem ensureDirectory_of_error {fault : DiskFault}
    (refused : machine.makeDirectory path = .error fault) :
    (ensureDirectory path : Simulated (Except DiskFault Unit)) machine =
      (if machine.isDirectory path then .ok () else .error fault, machine) := by
  cases held : machine.isDirectory path <;>
    simp [ensureDirectory, update, refused, held]

private theorem grows_of_ensureDirectory {outcome : Except DiskFault Unit}
    (ran : (ensureDirectory path : Simulated _) machine = (outcome, after)) :
    Grows [path] machine after := by
  cases made : machine.makeDirectory path with
  | error fault =>
      rw [ensureDirectory_of_error made] at ran
      cases ran
      exact .refl _ _
  | ok reached =>
      rw [ensureDirectory_of_ok made] at ran
      cases ran
      obtain ⟨place, puts, leads, missing⟩ := puts_of_makeDirectory made
      refine ⟨puts.workingDirectory, fun location => ?_⟩
      by_cases here : location = place
      · subst here
        exact .inr ⟨missing, puts.here, path, List.mem_singleton_self path, leads.mono puts.keeps⟩
      · exact .inl (puts.elsewhere location here)

private theorem grows_of_makeChain {paths : List String} {outcome : Except DiskFault Unit}
    (ran : (makeChain paths : Simulated _) machine = (outcome, after)) :
    Grows paths machine after := by
  induction paths generalizing machine after outcome with
  | nil =>
      cases ran
      exact .refl _ _
  | cons path above ih =>
      have head : [path] ⊆ path :: above := by simp
      have tail : above ⊆ path :: above := List.subset_cons_self path above
      rw [makeChain] at ran
      split at ran
      · cases ran
        exact .refl _ _
      · rcases tried : (ensureDirectory path : Simulated (Except DiskFault Unit)) machine with
          ⟨first, middle⟩
        have grown := (grows_of_ensureDirectory tried).subset head
        simp only [run_bind, tried] at ran
        split at ran
        · rcases raised : (makeChain above : Simulated (Except DiskFault Unit)) middle with
            ⟨second, further⟩
          have grownOn := grown.trans ((ih raised).subset tail)
          simp only [run_bind, raised] at ran
          cases second with
          | ok _ => exact grownOn.trans ((grows_of_ensureDirectory ran).subset head)
          | error fault =>
              cases ran
              exact grownOn
        · cases ran
          exact grown

theorem grows_of_makeParents {outcome : Except (String × DiskFault) Unit}
    (ran : (makeParents path : Simulated _) machine = (outcome, after)) :
    Grows (Path.above path) machine after := by
  unfold makeParents at ran
  cases parent : Path.parent? path with
  | none =>
      rw [parent] at ran
      cases ran
      exact .refl _ _
  | some above =>
      rcases made : (makeDirectories above : Simulated (Except DiskFault Unit)) machine with
        ⟨result, reached⟩
      have grown : Grows (Path.ancestors above) machine reached := grows_of_makeChain made
      simp only [parent, run_bind, made] at ran
      cases result with
      | ok _ =>
          cases ran
          simpa [Path.above, parent] using grown
      | error fault =>
          cases ran
          simpa [Path.above, parent] using grown

end Machine

end TreeCheck
