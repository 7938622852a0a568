import Mathlib.Data.List.Induction
import TreeCheck.Proofs.DiskProperties
import TreeCheck.Proofs.PathProperties

/-!
# Where paths lead

A path that is followed leads to a location, whether or not anything is there. It leads to the same
location as long as the directories on its way stay. A path joined to another leads below it, and
the absolute path of a location leads back to it.
-/

set_option autoImplicit false

namespace TreeCheck

/-- Directories stand above everything. -/
theorem Disk.hasDirectory_of_append {disk : Disk} {location below : Location}
    (found : disk.HasDirectory (location ++ below)) :
    disk.HasDirectory location := by
  induction below using List.reverseRecOn with
  | nil => simpa using found
  | append_singleton below name ih =>
      obtain ⟨entries, found⟩ := found
      rw [← List.append_assoc] at found
      exact ih (Entries.holder_of_get? found)

/-! ## Following names -/

namespace Trail

variable {disk : Disk} {trail reached : Trail} {names more : List String}

private theorem follow_append (disk : Disk) (trail : Trail) (names more : List String) :
    trail.follow disk (names ++ more) = (trail.follow disk names).bind (follow disk · more) :=
  List.foldlM_append

theorem follow_eq_ok_append_iff :
    trail.follow disk (names ++ more) = .ok reached ↔
      ∃ middle, trail.follow disk names = .ok middle ∧ middle.follow disk more = .ok reached := by
  rw [follow_append]
  cases trail.follow disk names <;> simp [Except.bind]

theorem follow_eq_ok_cons_iff {name : String} :
    trail.follow disk (name :: names) = .ok reached ↔
      ∃ middle, trail.step disk name = .ok middle ∧ middle.follow disk names = .ok reached := by
  rw [← follow_singleton, ← follow_eq_ok_append_iff, List.singleton_append]

theorem Sound.follow (sound : trail.Sound disk) (done : trail.follow disk names = .ok reached) :
    reached.Sound disk := by
  obtain ⟨_, _, arrived⟩ := Parallel.follow ⟨sound, sound, rfl⟩ (fun _ held => held) done
  exact arrived.sound

/-- Without `..`, the names that are no single dots lead on. -/
theorem location_of_follow (done : trail.follow disk names = .ok reached) (noDots : ".." ∉ names) :
    reached.location = trail.location ++ names.filter (· != ".") := by
  induction names generalizing trail with
  | nil =>
      cases done
      simp
  | cons name rest ih =>
      obtain ⟨middle, stepped, onward⟩ := follow_eq_ok_cons_iff.mp done
      obtain ⟨entries, -, -, rfl⟩ := step_eq_ok_iff.mp stepped
      obtain ⟨up, others⟩ : ".." ≠ name ∧ ".." ∉ rest := by simpa using noDots
      rw [ih onward others, next, if_neg up.symm]
      by_cases here : name = "."
      · simp [here]
      · simp [here]

/-- A name that is followed to an entry of its own. -/
structure IsOrdinary (name : String) : Prop where
  noDot : name ≠ "."
  noDots : name ≠ ".."
  short : name.utf8ByteSize ≤ maxNameLength

instance (name : String) : Decidable (IsOrdinary name) :=
  decidable_of_iff (name ≠ "." ∧ name ≠ ".." ∧ name.utf8ByteSize ≤ maxNameLength)
    ⟨fun ⟨noDot, noDots, short⟩ => ⟨noDot, noDots, short⟩,
      fun ordinary => ⟨ordinary.noDot, ordinary.noDots, ordinary.short⟩⟩

private theorem step_of_isOrdinary {name : String} (ordinary : IsOrdinary name) {entries : Entries}
    (found : trail.directory disk = .ok entries) :
    trail.step disk name = .ok ((name, entries.lookup name) :: trail) := by
  apply step_eq_ok_iff.mpr
  refine ⟨entries, found, .inr (.inr ordinary.short), ?_⟩
  rw [next, if_neg ordinary.noDot, if_neg ordinary.noDots]

theorem follow_of_hasDirectory (sound : trail.Sound disk)
    (ordinary : ∀ name ∈ names, IsOrdinary name)
    (holder : disk.HasDirectory (trail.location ++ names.dropLast)) :
    ∃ reached, trail.follow disk names = .ok reached ∧
      reached.location = trail.location ++ names := by
  induction names generalizing trail with
  | nil => exact ⟨trail, rfl, by simp⟩
  | cons name rest ih =>
      obtain ⟨first, others⟩ := List.forall_mem_cons.mp ordinary
      obtain ⟨entries, found⟩ := Disk.hasDirectory_of_append holder
      have stepped := step_of_isOrdinary first ((directory_eq_ok_iff sound).mpr found)
      cases rest with
      | nil => exact ⟨_, follow_eq_ok_cons_iff.mpr ⟨_, stepped, rfl⟩, by simp⟩
      | cons next rest =>
          have onward : Sound disk ((name, entries.lookup name) :: trail) :=
            ⟨(Entries.get?_concat found name).symm, sound⟩
          obtain ⟨reached, followed, place⟩ := ih onward others (by simpa using holder)
          exact ⟨reached, follow_eq_ok_cons_iff.mpr ⟨_, stepped, followed⟩, by simp [place]⟩

private theorem location_tail (trail : Trail) :
    Trail.location trail.tail = trail.location.dropLast := by
  simp [location, List.map_tail]

/-- Following adds names to a location or takes them away at its end. -/
theorem sublist_of_follow (done : trail.follow disk names = .ok reached) :
    reached.location.Sublist (trail.location ++ names) := by
  induction names generalizing trail with
  | nil =>
      cases done
      simp
  | cons name rest ih =>
      obtain ⟨middle, stepped, onward⟩ := follow_eq_ok_cons_iff.mp done
      obtain ⟨entries, -, -, rfl⟩ := step_eq_ok_iff.mp stepped
      have skipped : (trail.location ++ rest).Sublist (trail.location ++ name :: rest) :=
        (List.Sublist.refl _).append (List.sublist_cons_self name rest)
      have followed := ih onward
      unfold next at followed
      split at followed
      · exact followed.trans skipped
      · split at followed
        · rw [location_tail] at followed
          exact (followed.trans ((List.dropLast_sublist _).append_right rest)).trans skipped
        · simpa using followed

private theorem isOrdinary_of_follow (done : trail.follow disk names = .ok reached)
    (ordinary : ∀ name ∈ trail.location, IsOrdinary name) :
    ∀ name ∈ reached.location, IsOrdinary name := by
  induction names generalizing trail with
  | nil =>
      cases done
      exact ordinary
  | cons name rest ih =>
      obtain ⟨middle, stepped, onward⟩ := follow_eq_ok_cons_iff.mp done
      obtain ⟨entries, -, allowed, rfl⟩ := step_eq_ok_iff.mp stepped
      apply ih onward
      intro other member
      unfold next at member
      split at member
      · exact ordinary other member
      · rename_i noDot
        split at member
        · rw [location_tail] at member
          exact ordinary other (List.dropLast_subset _ member)
        · rename_i noDots
          have short := (allowed.resolve_left noDot).resolve_left noDots
          obtain earlier | rfl : other ∈ trail.location ∨ other = name := by simpa using member
          · exact ordinary other earlier
          · exact ⟨noDot, noDots, short⟩

end Trail

namespace Machine

variable {machine after : Machine} {path : String} {location : Location}

/-! ## Where a path leads -/

/-- The path leads to the location, where there need not be anything. -/
def Leads (machine : Machine) (path : String) (location : Location) : Prop :=
  ∃ route trail, machine.route path = .ok route ∧ machine.trail route = .ok trail ∧
    trail.location = location

/-- A path that is followed at all. -/
structure Passable (path : String) : Prop where
  noNul : '\x00' ∉ path.toList
  present : path ≠ ""
  short : path.utf8ByteSize < pathLimit

/-- Where a path starts. -/
def start (machine : Machine) (path : String) : Trail :=
  if Path.isAbsolute path then [] else Trail.toLocation machine.disk machine.workingDirectory

theorem sound_start (machine : Machine) (path : String) :
    (machine.start path).Sound machine.disk := by
  unfold start
  split
  · trivial
  · exact Trail.sound_toLocation _ _

private theorem location_start (machine : Machine) (path : String) :
    (machine.start path).location =
      if Path.isAbsolute path then [] else machine.workingDirectory := by
  unfold start
  split
  · rfl
  · exact Trail.location_toLocation _ _

/-- The route of a path that is followed. -/
def routeOf (machine : Machine) (path : String) : Route where
  start := machine.start path
  before := (pathNames path).dropLast
  last := (pathNames path).getLast?
  trailing := path.toList.getLast? == some '/'

theorem route_eq_ok_iff {route : Route} :
    machine.route path = .ok route ↔ Passable path ∧ machine.routeOf path = route := by
  unfold Machine.route
  by_cases nul : '\x00' ∈ path.toList
  · have refused : ¬ Passable path := fun passable => passable.noNul nul
    simp [nul, refused]
  · by_cases empty : path = ""
    · subst empty
      have refused : ¬ Passable "" := fun passable => passable.present rfl
      simp [refused]
    · by_cases short : pathLimit ≤ path.utf8ByteSize
      · have refused : ¬ Passable path := fun passable => absurd passable.short (by omega)
        simp [nul, empty, short, refused]
      · have passable : Passable path := ⟨nul, empty, by omega⟩
        simp [nul, empty, short, passable, routeOf, start]

theorem route_of_passable (machine : Machine) (passable : Passable path) :
    machine.route path = .ok (machine.routeOf path) :=
  route_eq_ok_iff.mpr ⟨passable, rfl⟩

theorem route_of_not_passable (machine : Machine) (present : path ≠ "")
    (refused : ¬ Passable path) :
    ∃ fault, machine.route path = .error fault ∧ fault ≠ .notFound := by
  unfold Machine.route
  by_cases nul : '\x00' ∈ path.toList
  · exact ⟨.nulInPath, by simp [nul], by simp⟩
  · by_cases short : pathLimit ≤ path.utf8ByteSize
    · exact ⟨.nameTooLong, by simp [nul, present, short], by simp⟩
    · exact absurd ⟨nul, present, by omega⟩ refused

theorem trail_routeOf (machine : Machine) (path : String) :
    machine.trail (machine.routeOf path) =
      (machine.start path).follow machine.disk (pathNames path) := by
  have whole : (pathNames path).dropLast ++ (pathNames path).getLast?.toList = pathNames path := by
    cases names : pathNames path using List.reverseRecOn with
    | nil => rfl
    | append_singleton front last => simp
  have split := Trail.follow_append machine.disk (machine.start path) (pathNames path).dropLast
    (pathNames path).getLast?.toList
  rw [whole] at split
  exact split.symm

theorem leads_iff :
    machine.Leads path location ↔
      Passable path ∧ ∃ trail,
        (machine.start path).follow machine.disk (pathNames path) = .ok trail ∧
          trail.location = location := by
  unfold Leads
  constructor
  · rintro ⟨route, trail, routed, followed, led⟩
    obtain ⟨passable, rfl⟩ := route_eq_ok_iff.mp routed
    exact ⟨passable, trail, (trail_routeOf machine path).symm.trans followed, led⟩
  · rintro ⟨passable, trail, followed, led⟩
    exact ⟨_, trail, machine.route_of_passable passable,
      (trail_routeOf machine path).trans followed, led⟩

theorem Leads.passable (leads : machine.Leads path location) : Passable path :=
  (leads_iff.mp leads).1

theorem Leads.unique {other : Location} (leads : machine.Leads path location)
    (leadsOther : machine.Leads path other) : location = other := by
  obtain ⟨-, trail, followed, rfl⟩ := leads_iff.mp leads
  obtain ⟨-, trail', followed', rfl⟩ := leads_iff.mp leadsOther
  rw [followed] at followed'
  cases followed'
  rfl

/-- The machine has the directories of the other, and the same working directory. -/
structure Keeps (machine after : Machine) : Prop where
  workingDirectory : after.workingDirectory = machine.workingDirectory
  directory : ∀ place, machine.disk.HasDirectory place → after.disk.HasDirectory place

/-- What can be followed leads to the same location as long as the directories stay. -/
theorem Keeps.follow (keeps : machine.Keeps after) {trail : Trail}
    (followed : (machine.start path).follow machine.disk (pathNames path) = .ok trail) :
    ∃ other, (after.start path).follow after.disk (pathNames path) = .ok other ∧
      other.location = trail.location := by
  have parallel : Trail.Parallel machine.disk after.disk (machine.start path) (after.start path) :=
    ⟨sound_start _ _, sound_start _ _, by simp [location_start, keeps.workingDirectory]⟩
  obtain ⟨other, refollowed, arrived⟩ := parallel.follow keeps.directory followed
  exact ⟨other, refollowed, arrived.location.symm⟩

theorem Leads.mono (leads : machine.Leads path location) (keeps : machine.Keeps after) :
    after.Leads path location := by
  obtain ⟨passable, trail, followed, rfl⟩ := leads_iff.mp leads
  exact leads_iff.mpr ⟨passable, keeps.follow followed⟩

theorem enter_of_leads (leads : machine.Leads path location)
    (held : machine.disk.HasDirectory location) :
    machine.enter path = .ok { machine with workingDirectory := location } := by
  obtain ⟨passable, trail, followed, rfl⟩ := leads_iff.mp leads
  obtain ⟨entries, found⟩ := held
  have sound := (sound_start machine path).follow followed
  unfold enter
  rw [machine.route_of_passable passable]
  dsimp only [bind, Except.bind]
  rw [trail_routeOf, followed]
  dsimp only
  rw [(Trail.directory_eq_ok_iff sound).mpr found]
  rfl

/-- Without `..`, the location of a path is spelled by its names. -/
theorem Leads.eq_steps (leads : machine.Leads path location) (noDots : ".." ∉ pathNames path) :
    location = (machine.start path).location ++ Path.steps path := by
  obtain ⟨-, trail, followed, rfl⟩ := leads_iff.mp leads
  rw [Trail.location_of_follow followed noDots, Path.filter_pathNames]

theorem Slot.leads (slot : machine.Slot path) : machine.Leads path slot.location := by
  have followed : machine.trail slot.route =
      .ok ((slot.name, slot.entries.lookup slot.name) :: slot.holder) := by
    unfold trail
    rw [slot.held]
    exact slot.follow_last
  exact ⟨slot.route, _, slot.routed, followed, Trail.location_cons _ _ _⟩

/-- Without `..`, a path above another leads to a location above it. -/
theorem Leads.startsLike {higher : String} {location place : Location}
    (member : higher ∈ Path.above path) (leads : machine.Leads higher location)
    (leadsBelow : machine.Leads path place) (noDots : ".." ∉ pathNames path) :
    location <+: place := by
  obtain ⟨text, named⟩ := Path.startsLike_of_mem_above member
  have stepped : ".." ∉ Path.steps path := by
    rw [← Path.filter_pathNames]
    exact fun within => noDots (List.mem_filter.mp within).1
  have noDotsAbove : ".." ∉ pathNames higher := by
    intro within
    have kept : ".." ∈ (pathNames higher).filter (· != ".") :=
      List.mem_filter.mpr ⟨within, by decide⟩
    rw [Path.filter_pathNames] at kept
    exact stepped (named.subset kept)
  have absolute := Path.isAbsolute_eq_of_startsLike text leads.passable.present
  rw [leads.eq_steps noDotsAbove, leadsBelow.eq_steps noDots, location_start, location_start,
    absolute]
  exact (List.prefix_append_right_inj _).mpr named

/-! ## Joined paths -/

/-- A relative path that is spelled by ordinary names with one slash between them. -/
structure Plain (path : String) : Prop where
  relative : Path.isAbsolute path = false
  ordinary : ∀ name ∈ pathNames path, Trail.IsOrdinary name
  named : pathNames path ≠ []
  spelled : path.utf8ByteSize + 1 = Path.span (pathNames path)
  unslashed : path.toList.getLast? ≠ some '/'

instance (path : String) : Decidable (Plain path) :=
  decidable_of_iff (Path.isAbsolute path = false ∧
      (∀ name ∈ pathNames path, Trail.IsOrdinary name) ∧ pathNames path ≠ [] ∧
      path.utf8ByteSize + 1 = Path.span (pathNames path) ∧ path.toList.getLast? ≠ some '/')
    ⟨fun ⟨relative, ordinary, named, spelled, unslashed⟩ =>
        ⟨relative, ordinary, named, spelled, unslashed⟩,
      fun plain => ⟨plain.relative, plain.ordinary, plain.named, plain.spelled, plain.unslashed⟩⟩

/-- What a path that continues another one below a directory has of the two. -/
structure Continues (directory path joined : String) : Prop where
  names : pathNames joined = pathNames directory ++ pathNames path
  absolute : Path.isAbsolute joined = Path.isAbsolute directory
  present : joined ≠ ""
  unslashed : joined.toList.getLast? ≠ some '/'

theorem Continues.start {directory joined : String} (continues : Continues directory path joined) :
    machine.start joined = machine.start directory := by
  rw [Machine.start, Machine.start, continues.absolute]

namespace Plain

variable {directory : String} {base : Location}

theorem present (plain : Plain path) : path.toList ≠ [] := by
  intro empty
  apply plain.named
  simp [pathNames, empty, Path.pieces]

theorem noDots (plain : Plain path) : ".." ∉ pathNames path :=
  fun member => (plain.ordinary _ member).noDots rfl

theorem filter_pathNames (plain : Plain path) :
    (pathNames path).filter (· != ".") = pathNames path :=
  List.filter_eq_self.mpr fun name member => by simpa using (plain.ordinary name member).noDot

theorem unslashed_join (plain : Plain path) (present : directory ≠ "") :
    (Path.join directory path).toList.getLast? ≠ some '/' := by
  obtain ⟨first, rest, shape⟩ := List.exists_cons_of_ne_nil plain.present
  have unslashed := plain.unslashed
  rw [Path.toList_join present plain.relative]
  rw [shape] at unslashed ⊢
  simpa using unslashed

theorem join_ne_empty (plain : Plain path) (present : directory ≠ "") :
    Path.join directory path ≠ "" := by
  rw [ne_eq, ← String.toList_inj, Path.toList_join present plain.relative]
  simp

private theorem isAbsolute_join (plain : Plain path) (present : directory ≠ "") :
    Path.isAbsolute (Path.join directory path) = Path.isAbsolute directory :=
  (Path.isAbsolute_eq_of_startsLike (Path.startsLike_join present plain.relative) present).symm

/-- Any path can be continued, also the empty one, which itself leads nowhere. -/
theorem continues (plain : Plain path) (directory : String) :
    Continues directory path (Path.join directory path) := by
  by_cases empty : directory = ""
  · subst empty
    have same : Path.join "" path = path := by simp [Path.join, plain.relative]
    have relative : Path.isAbsolute path = Path.isAbsolute "" := plain.relative
    have present : path ≠ "" := by simpa using plain.present
    rw [same]
    exact ⟨rfl, relative, present, plain.unslashed⟩
  · exact ⟨Path.pathNames_join empty plain.relative, plain.isAbsolute_join empty,
      plain.join_ne_empty empty, plain.unslashed_join empty⟩

theorem last_join (plain : Plain path) (directory : String) :
    ∃ name, (pathNames (Path.join directory path)).getLast? = some name ∧
      Trail.IsOrdinary name := by
  have last := List.getLast?_eq_some_getLast plain.named
  refine ⟨_, ?_, plain.ordinary _ (List.getLast_mem plain.named)⟩
  rw [(plain.continues directory).names, List.getLast?_append, last]
  rfl

private theorem follow_join (plain : Plain path) (leads : machine.Leads directory base) :
    ∃ trail : Trail, trail.Sound machine.disk ∧ trail.location = base ∧
      (machine.start (Path.join directory path)).follow machine.disk
        (pathNames (Path.join directory path)) = trail.follow machine.disk (pathNames path) := by
  obtain ⟨passable, trail, followed, led⟩ := leads_iff.mp leads
  refine ⟨trail, (sound_start machine directory).follow followed, led, ?_⟩
  rw [(plain.continues directory).start, (plain.continues directory).names, Trail.follow_append,
    followed]
  rfl

/-- A path joined to that of a directory leads below the directory. -/
theorem eq_of_leads_join (plain : Plain path) (leads : machine.Leads directory base)
    (leadsBelow : machine.Leads (Path.join directory path) location) :
    location = base ++ pathNames path := by
  obtain ⟨-, reached, followed, rfl⟩ := leads_iff.mp leadsBelow
  obtain ⟨trail, -, rfl, same⟩ := plain.follow_join leads
  rw [same] at followed
  rw [Trail.location_of_follow followed plain.noDots, plain.filter_pathNames]

theorem leads_join (plain : Plain path) (leads : machine.Leads directory base)
    (passable : Passable (Path.join directory path))
    (holder : machine.disk.HasDirectory (base ++ (pathNames path).dropLast)) :
    machine.Leads (Path.join directory path) (base ++ pathNames path) := by
  obtain ⟨trail, sound, rfl, same⟩ := plain.follow_join leads
  obtain ⟨reached, followed, place⟩ := Trail.follow_of_hasDirectory sound plain.ordinary holder
  exact leads_iff.mpr ⟨passable, reached, same.trans followed, place⟩

end Plain

theorem Passable.noNul_join {directory other : String}
    (passable : Passable (Path.join directory path)) (plain : Plain path)
    (plainOther : Plain other) (noNul : '\x00' ∉ other.toList) :
    '\x00' ∉ (Path.join directory other).toList := by
  have before := passable.noNul
  rw [Path.join_eq_lead_append directory plain.relative, String.toList_append, List.mem_append,
    not_or] at before
  rw [Path.join_eq_lead_append directory plainOther.relative, String.toList_append, List.mem_append,
    not_or]
  exact ⟨before.1, noNul⟩

theorem Passable.join_of_le {directory other : String}
    (passable : Passable (Path.join directory path)) (plain : Plain path)
    (plainOther : Plain other) (noNul : '\x00' ∉ other.toList)
    (shorter : other.utf8ByteSize ≤ path.utf8ByteSize) : Passable (Path.join directory other) where
  noNul := passable.noNul_join plain plainOther noNul
  present := (plainOther.continues directory).present
  short := by
    have room := passable.short
    rw [Path.join_eq_lead_append directory plain.relative, String.utf8ByteSize_append] at room
    rw [Path.join_eq_lead_append directory plainOther.relative, String.utf8ByteSize_append]
    omega

/-! ## Absolute paths -/

section Absolute

variable {directory : String} {base : Location}

private theorem utf8ByteSize_stem_absolutePath_le (plain : ∀ name ∈ base, '/' ∉ name.toList) :
    (String.ofList (Path.stem (absolutePath base))).utf8ByteSize ≤ Path.span base := by
  cases base with
  | nil => exact Nat.le_refl 0
  | cons name rest =>
      rw [← Path.utf8ByteSize_absolutePath plain (by simp)]
      exact Path.utf8ByteSize_stem_le _

theorem absolutePath_ne_empty (base : Location) : absolutePath base ≠ "" := by
  rw [ne_eq, ← String.toList_inj]
  simp [absolutePath]

private theorem isAbsolute_absolutePath (base : Location) : Path.isAbsolute
    (absolutePath base) = true := by
  simp [Path.isAbsolute, absolutePath]

/-- What an absolute path of a directory makes of the names in its location: they can be followed
from the root, and they take no more room than the path. -/
theorem Leads.names (leads : machine.Leads directory base)
    (absolute : Path.isAbsolute directory = true) :
    (∀ name ∈ base, Trail.IsOrdinary name ∧ name ∈ pathNames directory) ∧
      Path.span base ≤ Path.span (pathNames directory) := by
  obtain ⟨-, trail, followed, rfl⟩ := leads_iff.mp leads
  have root : machine.start directory = [] := by rw [start, absolute, if_pos rfl]
  rw [root] at followed
  have within := Trail.sublist_of_follow followed
  have ordinary := Trail.isOrdinary_of_follow followed (by simp [Trail.location])
  exact ⟨fun name member => ⟨ordinary name member, within.subset member⟩,
    Path.span_le_of_sublist within⟩

theorem Plain.passable_absolutePath (plain : Plain path) (leads : machine.Leads directory base)
    (absolute : Path.isAbsolute directory = true)
    (passable : Passable (Path.join directory path)) :
    Passable (Path.join (absolutePath base) path) := by
  obtain ⟨names, room⟩ := leads.names absolute
  have present := leads.passable.present
  have slashless : ∀ name ∈ base, '/' ∉ name.toList := fun name member slash =>
    ((Path.of_mem_pathNames (names name member).2).2 '/' slash).2 rfl
  have joined := Path.toList_join (absolutePath_ne_empty base) plain.relative
  constructor
  · intro nul
    have spelled := Path.toList_join present plain.relative
    rw [joined, List.mem_append, List.mem_cons] at nul
    obtain inside | slash | inside := nul
    · have within : '\x00' ∈ (absolutePath base).toList := by
        rcases Path.stem_cases (absolutePath base) with shape | shape <;>
          simp [shape, inside]
      obtain slash | ⟨name, member, held⟩ := Path.mem_absolutePath within
      · cases slash
      · exact leads.passable.noNul ((Path.of_mem_pathNames (names name member).2).2 _ held).1
    · cases slash
    · exact passable.noNul (by simp [spelled, inside])
  · exact plain.join_ne_empty (absolutePath_ne_empty base)
  · have absoluteJoin : Path.isAbsolute (Path.join directory path) = true :=
      (plain.isAbsolute_join present).trans absolute
    have bound := Path.span_pathNames_le absoluteJoin
    rw [Path.pathNames_join present plain.relative, Path.span_append] at bound
    have stem := utf8ByteSize_stem_absolutePath_le slashless
    have size := Path.utf8ByteSize_join (absolutePath_ne_empty base) plain.relative
    have spelled := plain.spelled
    have short := passable.short
    omega

/-- From any working directory, paths joined to the absolute path of a directory lead below it. -/
theorem Plain.leads_absolutePath (plain : Plain path) (leads : machine.Leads directory base)
    (absolute : Path.isAbsolute directory = true)
    (passable : Passable (Path.join directory path))
    (holder : machine.disk.HasDirectory (base ++ (pathNames path).dropLast))
    (workingDirectory : Location) :
    Leads { machine with workingDirectory } (Path.join (absolutePath base) path)
      (base ++ pathNames path) := by
  obtain ⟨names, -⟩ := leads.names absolute
  have spelled : pathNames (absolutePath base) = base := by
    apply Path.pathNames_absolutePath
    · intro name member slash
      exact ((Path.of_mem_pathNames (names name member).2).2 '/' slash).2 rfl
    · exact fun name member => (Path.of_mem_pathNames (names name member).2).1
  have ordinary : ∀ name ∈ base ++ pathNames path, Trail.IsOrdinary name := by
    intro name member
    obtain above | below := List.mem_append.mp member
    · exact (names name above).1
    · exact plain.ordinary name below
  have root :
      start { machine with workingDirectory } (Path.join (absolutePath base) path) = [] := by
    rw [(plain.continues _).start, start, isAbsolute_absolutePath, if_pos rfl]
  obtain ⟨reached, followed, place⟩ := @Trail.follow_of_hasDirectory machine.disk []
    (base ++ pathNames path) trivial ordinary
    (by simpa [Trail.location, List.dropLast_append_of_ne_nil plain.named] using holder)
  refine leads_iff.mpr ⟨plain.passable_absolutePath leads absolute passable, reached, ?_, place⟩
  rw [root, Path.pathNames_join (absolutePath_ne_empty base) plain.relative, spelled, followed]

end Absolute

end Machine

end TreeCheck
