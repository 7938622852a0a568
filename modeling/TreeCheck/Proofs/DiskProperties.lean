import TreeCheck.Disk.Machine

/-!
# What is written can be read

A trail holds what each of its names leads to, and what it holds is what the disk has at these
locations. A file put on a disk leaves every directory a directory, so the way that led to the file
when it was written leads to it again.
-/

set_option autoImplicit false

namespace TreeCheck

/-! ## Entries -/

namespace Entries

variable {entries below : Entries} {name : String} {location other : Location}

theorem get?_of_directory (found : entries.lookup name = some (.directory below))
    (rest : Location) : entries.get? (name :: rest) = below.get? rest := by
  simp [get?, found]

theorem get?_singleton (entries : Entries) (name : String) :
    entries.get? [name] = entries.lookup name := by
  cases found : entries.lookup name with
  | none => simp [get?, found]
  | some entry => cases entry <;> simp [get?, found]

/-- The way to a directory leads through directories. -/
theorem lookup_of_get? {rest : Location}
    (found : entries.get? (name :: rest) = some (.directory below)) :
    ∃ inner, entries.lookup name = some (.directory inner) := by
  cases first : entries.lookup name with
  | none => simp [get?, first] at found
  | some entry =>
      cases entry with
      | file content => cases rest <;> simp [get?, first] at found
      | directory inner => exact ⟨inner, rfl⟩

theorem get?_concat (holder : entries.get? location = some (.directory below)) (name : String) :
    entries.get? (location ++ [name]) = below.lookup name := by
  induction location generalizing entries with
  | nil =>
      cases holder
      exact get?_singleton below name
  | cons first rest ih =>
      obtain ⟨inner, found⟩ := lookup_of_get? holder
      rw [get?_of_directory found] at holder
      rw [List.cons_append, get?_of_directory found]
      exact ih holder

/-- What is found stands in a directory. -/
theorem holder_of_get? {entry : Entry} (found : entries.get? (location ++ [name]) = some entry) :
    ∃ below, entries.get? location = some (.directory below) := by
  induction location generalizing entries with
  | nil => exact ⟨entries, rfl⟩
  | cons first rest ih =>
      obtain ⟨next, more, shape⟩ : ∃ next more, rest ++ [name] = next :: more := by
        cases rest <;> exact ⟨_, _, rfl⟩
      cases bound : entries.lookup first with
      | none => simp [get?, bound] at found
      | some entry =>
          cases entry with
          | file content => simp [get?, bound, shape] at found
          | directory inner =>
              rw [List.cons_append, get?_of_directory bound] at found
              rw [get?_of_directory bound]
              exact ih found

theorem get?_bind_of_ne {entry : Entry} {first : String} (differs : first ≠ name)
    (rest : Location) :
    (entries.bind name entry).get? (first :: rest) = entries.get? (first :: rest) := by
  cases rest with
  | nil => rw [get?_singleton, get?_singleton, lookup_bind_of_ne entry differs]
  | cons next rest =>
      have same := @lookup_bind_of_ne entries name first entry differs
      cases found : entries.lookup first with
      | none => simp [get?, found, same]
      | some bound => cases bound <;> simp [get?, found, same]

theorem put_of_directory {entry : Entry} {next : String} {rest : Location}
    (found : entries.lookup name = some (.directory below)) :
    put entry (name :: next :: rest) entries =
      entries.bind name (.directory (put entry (next :: rest) below)) := by
  simp [put, found]

theorem put_of_not_directory {entry : Entry} {next : String} {rest : Location}
    (missing : ∀ below, entries.lookup name ≠ some (.directory below)) :
    put entry (name :: next :: rest) entries = entries := by
  cases found : entries.lookup name with
  | none => simp [put, found]
  | some bound =>
      cases bound with
      | file content => simp [put, found]
      | directory below => exact absurd found (missing below)

/-- What is put where there is no directory takes no directory away. -/
theorem directory_put {entry : Entry}
    (free : ∀ inner, entries.get? location ≠ some (.directory inner))
    (found : entries.get? other = some (.directory below)) :
    ∃ inner, (put entry location entries).get? other = some (.directory inner) := by
  induction location generalizing entries other with
  | nil => exact absurd (get?_nil entries) (free entries)
  | cons name rest ih =>
      cases other with
      | nil => exact ⟨_, rfl⟩
      | cons first more =>
          obtain ⟨inner, way⟩ := lookup_of_get? found
          cases rest with
          | nil =>
              have differs : first ≠ name := by
                rintro rfl
                exact free inner ((get?_singleton entries first).trans way)
              exact ⟨below, (get?_bind_of_ne differs more).trans found⟩
          | cons next rest =>
              by_cases through : ∃ beyond, entries.lookup name = some (.directory beyond)
              · obtain ⟨beyond, bound⟩ := through
                rw [put_of_directory bound]
                by_cases same : first = name
                · subst same
                  rw [get?_of_directory bound] at found
                  rw [get?_of_directory (lookup_bind_self entries first _)]
                  exact ih (fun held => by rw [← get?_of_directory bound]; exact free held) found
                · exact ⟨below, (get?_bind_of_ne same more).trans found⟩
              · rw [put_of_not_directory fun beyond bound => through ⟨beyond, bound⟩]
                exact ⟨below, found⟩

end Entries

/-! ## Trails -/

/-- There is a directory at the location. -/
def Disk.HasDirectory (disk : Disk) (location : Location) : Prop :=
  ∃ entries, disk.get? location = some (.directory entries)

theorem Disk.HasDirectory.put {disk : Disk} {location other : Location} (entry : Entry)
    (free : ¬ disk.HasDirectory location) (found : disk.HasDirectory other) :
    (disk.put location entry).HasDirectory other := by
  obtain ⟨below, found⟩ := found
  exact Entries.directory_put (fun inner held => free ⟨inner, held⟩) found

namespace Trail

variable {disk after : Disk} {trail other : Trail} {name : String}

/-- The trail holds what the disk has. -/
def Sound (disk : Disk) : Trail → Prop
  | [] => True
  | (name, entry) :: rest => entry = disk.get? (location rest ++ [name]) ∧ Sound disk rest

theorem Sound.target? (sound : trail.Sound disk) :
    trail.target? disk = disk.get? trail.location := by
  cases trail with
  | nil => rfl
  | cons head rest =>
      rw [target?_cons, location_cons]
      exact sound.1

theorem Sound.tail (sound : trail.Sound disk) : Sound disk trail.tail := by
  cases trail with
  | nil => exact sound
  | cons head rest => exact sound.2

theorem directory_eq_ok_iff {entries : Entries} (sound : trail.Sound disk) :
    trail.directory disk = .ok entries ↔ disk.get? trail.location = some (.directory entries) := by
  unfold directory
  rw [sound.target?]
  cases disk.get? trail.location with
  | none => simp
  | some entry => cases entry <;> simp

private theorem sound_push (sound : trail.Sound disk) (name : String) :
    (trail.push disk name).Sound disk := by
  refine ⟨?_, sound⟩
  cases found : trail.directory disk with
  | ok entries =>
      exact (Entries.get?_concat ((directory_eq_ok_iff sound).mp found) name).symm
  | error fault =>
      cases held : disk.get? (trail.location ++ [name]) with
      | none => rfl
      | some entry =>
          obtain ⟨entries, holder⟩ := Entries.holder_of_get? held
          rw [(directory_eq_ok_iff sound).mpr holder] at found
          cases found

theorem sound_toLocation (disk : Disk) (location : Location) :
    (toLocation disk location).Sound disk := by
  have grown : ∀ trail : Trail, trail.Sound disk →
      Sound disk (location.foldl (push disk) trail) := by
    induction location with
    | nil => exact fun _ sound => sound
    | cons name rest ih => exact fun trail sound => ih _ (sound_push sound name)
  exact grown [] trivial

theorem location_toLocation (disk : Disk) (location : Location) :
    (toLocation disk location).location = location := by
  have grown : ∀ trail : Trail,
      Trail.location (location.foldl (push disk) trail) = trail.location ++ location := by
    induction location with
    | nil => exact fun trail => (List.append_nil _).symm
    | cons name rest ih =>
        intro trail
        rw [List.foldl_cons, ih, push, location_cons, List.append_assoc, List.singleton_append]
  exact grown []

/-- The two trails go the same way, each on its own disk. -/
structure Parallel (disk after : Disk) (trail other : Trail) : Prop where
  sound : trail.Sound disk
  otherSound : other.Sound after
  location : trail.location = other.location

theorem Parallel.tail (parallel : Parallel disk after trail other) :
    Parallel disk after trail.tail other.tail where
  sound := parallel.sound.tail
  otherSound := parallel.otherSound.tail
  location := by
    have same := congrArg List.dropLast parallel.location
    simpa [Trail.location, List.map_tail] using same

theorem Parallel.directory (parallel : Parallel disk after trail other)
    (kept : ∀ place, disk.HasDirectory place → after.HasDirectory place) {entries : Entries}
    (found : trail.directory disk = .ok entries) :
    ∃ inner, other.directory after = .ok inner := by
  obtain ⟨inner, held⟩ := kept _ ⟨entries, (directory_eq_ok_iff parallel.sound).mp found⟩
  rw [parallel.location] at held
  exact ⟨inner, (directory_eq_ok_iff parallel.otherSound).mpr held⟩

/-- Where a name leads from a directory. -/
def next (trail : Trail) (entries : Entries) (name : String) : Trail :=
  if name = "." then trail
  else if name = ".." then trail.tail
  else (name, entries.lookup name) :: trail

theorem step_eq_ok_iff {reached : Trail} :
    trail.step disk name = .ok reached ↔
      ∃ entries, trail.directory disk = .ok entries ∧
        (name = "." ∨ name = ".." ∨ name.utf8ByteSize ≤ maxNameLength) ∧
        reached = trail.next entries name := by
  unfold step next
  cases trail.directory disk with
  | error fault => simp [bind, Except.bind]
  | ok entries =>
      by_cases here : name = "."
      · simp [bind, Except.bind, here, pure, Except.pure, eq_comm]
      · by_cases up : name = ".."
        · simp [bind, Except.bind, up, pure, Except.pure, eq_comm]
        · by_cases long : maxNameLength < name.utf8ByteSize
          · have beyond := Nat.not_le.mpr long
            simp [bind, Except.bind, here, up, long, beyond, throw, throwThe, MonadExceptOf.throw]
          · have short := Nat.not_lt.mp long
            simp [bind, Except.bind, here, up, long, short, pure, Except.pure, eq_comm]

theorem Parallel.next (parallel : Parallel disk after trail other) {entries inner : Entries}
    (found : trail.directory disk = .ok entries) (foundOther : other.directory after = .ok inner)
    (name : String) : Parallel disk after (trail.next entries name) (other.next inner name) := by
  unfold Trail.next
  split
  · exact parallel
  · split
    · exact parallel.tail
    · refine ⟨⟨?_, parallel.sound⟩, ⟨?_, parallel.otherSound⟩, ?_⟩
      · exact (Entries.get?_concat ((directory_eq_ok_iff parallel.sound).mp found) name).symm
      · exact (Entries.get?_concat ((directory_eq_ok_iff parallel.otherSound).mp foundOther)
          name).symm
      · rw [location_cons, location_cons, parallel.location]

theorem Parallel.step (parallel : Parallel disk after trail other)
    (kept : ∀ place, disk.HasDirectory place → after.HasDirectory place) {reached : Trail}
    (done : trail.step disk name = .ok reached) :
    ∃ reachedOther, other.step after name = .ok reachedOther ∧
      Parallel disk after reached reachedOther := by
  obtain ⟨entries, found, short, rfl⟩ := step_eq_ok_iff.mp done
  obtain ⟨inner, foundOther⟩ := parallel.directory kept found
  exact ⟨_, step_eq_ok_iff.mpr ⟨inner, foundOther, short, rfl⟩,
    parallel.next found foundOther name⟩

theorem follow_singleton (disk : Disk) (trail : Trail) (name : String) :
    trail.follow disk [name] = trail.step disk name := by
  rw [follow, List.foldlM_cons]
  cases trail.step disk name <;> rfl

theorem Parallel.follow (parallel : Parallel disk after trail other)
    (kept : ∀ place, disk.HasDirectory place → after.HasDirectory place) {names : List String}
    {reached : Trail} (done : trail.follow disk names = .ok reached) :
    ∃ reachedOther, other.follow after names = .ok reachedOther ∧
      Parallel disk after reached reachedOther := by
  induction names generalizing trail other with
  | nil =>
      cases done
      exact ⟨other, rfl, parallel⟩
  | cons name rest ih =>
      rw [Trail.follow, List.foldlM_cons] at done
      cases stepped : trail.step disk name with
      | error fault =>
          rw [stepped] at done
          cases done
      | ok middle =>
          rw [stepped] at done
          obtain ⟨middleOther, steppedOther, onward⟩ := parallel.step kept stepped
          obtain ⟨reachedOther, doneOther, arrived⟩ := ih onward done
          refine ⟨reachedOther, ?_, arrived⟩
          rw [Trail.follow, List.foldlM_cons, steppedOther]
          exact doneOther

end Trail

/-! ## Machines -/

namespace Machine

variable {machine after : Machine} {path : String}

/-- The last name of a path and the directory in which it stands, or would stand. -/
structure Slot (machine : Machine) (path : String) where
  route : Route
  holder : Trail
  entries : Entries
  name : String
  routed : machine.route path = .ok route
  held : machine.holder route = .ok holder
  found : holder.directory machine.disk = .ok entries
  untrailed : route.trailing = false
  last : route.last = some name
  noDot : name ≠ "."
  noDots : name ≠ ".."
  short : name.utf8ByteSize ≤ Trail.maxNameLength

namespace Slot

variable (slot : machine.Slot path)

def location : Location :=
  slot.holder.location ++ [slot.name]

theorem follow_last :
    slot.holder.follow machine.disk slot.route.last.toList =
      .ok ((slot.name, slot.entries.lookup slot.name) :: slot.holder) := by
  rw [slot.last, Option.toList_some, Trail.follow_singleton]
  refine Trail.step_eq_ok_iff.mpr ⟨slot.entries, slot.found, .inr (.inr slot.short), ?_⟩
  rw [Trail.next, if_neg slot.noDot, if_neg slot.noDots]

end Slot

/-- On another disk a path takes the same way. -/
theorem route_of_disk {route : Route} (routed : machine.route path = .ok route) (disk : Disk) :
    ∃ start, Machine.route { machine with disk } path = .ok { route with start } ∧
      Trail.Parallel machine.disk disk route.start start := by
  unfold Machine.route at routed ⊢
  split at routed
  · cases routed
  · rename_i noNul
    rw [if_neg noNul]
    split at routed
    · cases routed
    · rename_i present
      rw [if_neg present]
      split at routed
      · cases routed
      · rename_i short
        rw [if_neg short]
        cases routed
        refine ⟨_, rfl, ?_⟩
        dsimp only
        split
        · exact ⟨trivial, trivial, rfl⟩
        · exact ⟨Trail.sound_toLocation _ _, Trail.sound_toLocation _ _,
            (Trail.location_toLocation _ _).trans (Trail.location_toLocation _ _).symm⟩

private theorem holder_of_disk {route : Route} {holder : Trail} {disk : Disk}
    (kept : ∀ place, machine.disk.HasDirectory place → disk.HasDirectory place)
    (routed : machine.route path = .ok route) (held : machine.holder route = .ok holder) :
    ∃ start other, Machine.route { machine with disk } path = .ok { route with start } ∧
      Machine.holder { machine with disk } { route with start } = .ok other ∧
      Trail.Parallel machine.disk disk holder other := by
  obtain ⟨start, rerouted, parallel⟩ := route_of_disk routed disk
  obtain ⟨other, reheld, arrived⟩ := parallel.follow kept held
  exact ⟨start, other, rerouted, reheld, arrived⟩

theorem Slot.get?_holder (slot : machine.Slot path) :
    machine.disk.get? slot.holder.location = some (.directory slot.entries) := by
  obtain ⟨-, -, -, -, ⟨sound, -, -⟩⟩ := holder_of_disk (fun _ held => held) slot.routed slot.held
  exact (Trail.directory_eq_ok_iff sound).mp slot.found

theorem Slot.lookup_name (slot : machine.Slot path) :
    slot.entries.lookup slot.name = machine.disk.get? slot.location :=
  (Entries.get?_concat slot.get?_holder slot.name).symm

theorem Slot.get?_put (slot : machine.Slot path) (entry : Entry) :
    (machine.disk.put slot.location entry).get? slot.location = some entry :=
  Entries.get?_put_self entry slot.name slot.get?_holder

theorem Slot.find_file (slot : machine.Slot path) {content : Content}
    (held : machine.disk.get? slot.location = some (.file content)) :
    machine.find path = .ok (.file content) := by
  unfold find trail
  rw [slot.routed]
  dsimp only [bind, Except.bind]
  rw [slot.held]
  dsimp only
  rw [slot.follow_last]
  dsimp only
  rw [Trail.target?_cons, slot.lookup_name, held]
  dsimp only
  rw [slot.untrailed]
  rfl

/-- On a disk that has the same directories, the path has the same slot. -/
theorem Slot.of_disk (slot : machine.Slot path) {disk : Disk}
    (kept : ∀ place, machine.disk.HasDirectory place → disk.HasDirectory place) :
    ∃ other : Slot { machine with disk } path, other.location = slot.location := by
  obtain ⟨start, holder, routed, held, parallel⟩ := holder_of_disk kept slot.routed slot.held
  obtain ⟨inner, found⟩ := parallel.directory kept slot.found
  let other : Slot { machine with disk } path :=
    ⟨_, holder, inner, slot.name, routed, held, found, slot.untrailed, slot.last, slot.noDot,
      slot.noDots, slot.short⟩
  refine ⟨other, ?_⟩
  change holder.location ++ [slot.name] = _
  rw [← parallel.location]
  rfl

theorem last_of_isDotted {route : Route} (undotted : route.isDotted = false) :
    ∃ name, route.last = some name ∧ name ≠ "." ∧ name ≠ ".." := by
  unfold Route.isDotted at undotted
  cases last : route.last with
  | none => simp [last] at undotted
  | some name => exact ⟨name, rfl, by simpa [last] using undotted⟩

private theorem exists_slot {route : Route} {holder reached : Trail} {entries : Entries}
    (routed : machine.route path = .ok route) (held : machine.holder route = .ok holder)
    (found : holder.directory machine.disk = .ok entries) (untrailed : route.trailing = false)
    (undotted : route.isDotted = false)
    (followed : holder.follow machine.disk route.last.toList = .ok reached) :
    ∃ slot : machine.Slot path, reached.target? machine.disk = machine.disk.get? slot.location ∧
      reached.location = slot.location := by
  obtain ⟨name, last, noDot, noDots⟩ := last_of_isDotted undotted
  have stepped := followed
  rw [last, Option.toList_some, Trail.follow_singleton] at stepped
  obtain ⟨-, -, allowed, -⟩ := Trail.step_eq_ok_iff.mp stepped
  have short := (allowed.resolve_left noDot).resolve_left noDots
  let slot : machine.Slot path :=
    ⟨route, holder, entries, name, routed, held, found, untrailed, last, noDot, noDots, short⟩
  obtain rfl := Except.ok.inj (followed.symm.trans slot.follow_last)
  exact ⟨slot, slot.lookup_name, Trail.location_cons _ _ _⟩

/-- A file is written into the slot of its path, unless there is a directory. -/
theorem slot_of_writeFile {content : Content}
    (written : machine.writeFile path content = .ok after) :
    ∃ slot : machine.Slot path, ¬ machine.disk.HasDirectory slot.location ∧
      after = { machine with disk := machine.disk.put slot.location (.file content) } := by
  unfold writeFile at written
  dsimp only [bind, Except.bind] at written
  split at written
  · cases written
  rename_i route routed
  split at written
  · cases written
  rename_i holder held
  split at written
  · cases written
  rename_i entries found
  split at written
  · cases written
  rename_i plain
  split at written
  · cases written
  rename_i reached followed
  obtain ⟨untrailed, undotted⟩ : route.trailing = false ∧ route.isDotted = false := by
    simpa using plain
  obtain ⟨slot, target, location⟩ := exists_slot routed held found untrailed undotted followed
  split at written
  · cases written
  · rename_i free
    cases written
    refine ⟨slot, ?_, by rw [location]⟩
    rintro ⟨inner, directory⟩
    exact free inner (target.trans directory)

theorem readText_of_writeText {content : String}
    (written : machine.writeText path content = .ok after) :
    after.readText path = .ok content := by
  obtain ⟨slot, free, rfl⟩ := slot_of_writeFile written
  obtain ⟨other, same⟩ := slot.of_disk fun place =>
    Disk.HasDirectory.put (.file (.text content)) free
  have holds : (machine.disk.put slot.location (.file (.text content))).get? other.location =
      some (.file (.text content)) := by
    rw [same]
    exact slot.get?_put _
  rw [readText, other.find_file holds]
  rfl

end Machine

end TreeCheck
