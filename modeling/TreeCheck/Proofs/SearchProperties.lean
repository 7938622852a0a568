import Mathlib.Data.List.Infix
import TreeCheck.Proofs.InitProperties

/-!
# The search for a configuration

The directories above a directory have fewer and fewer names, one less each time, until none is
left; so the way up ends, and the bound on its length is never reached. On this way the first
directory that has an entry for the configuration decides, whatever the entry is.
-/

set_option autoImplicit false

namespace TreeCheck

/-! ## Names and parents -/

namespace Path

variable {path higher : String}

theorem names_eq (path : String) :
    names path = (if (pieces path.toList).head? = some ['.'] then ["."] else []) ++ steps path :=
  rfl

private theorem head?_pieces_append (front back : List Char) :
    (pieces (front ++ '/' :: back)).head? = (pieces front).head? := by
  rw [pieces_append]
  exact List.head?_append_of_ne_nil _ (pieces_ne_nil front)

private theorem head?_pieces_trimEnd (reversed : List Char) :
    (pieces (trimEnd reversed).reverse).head? = (pieces reversed.reverse).head? := by
  fun_induction trimEnd reversed with
  | case1 => rfl
  | case2 rest _ ih =>
      have shape : ('/' :: rest).reverse = rest.reverse ++ '/' :: [] := by simp
      rw [ih, shape, head?_pieces_append]
  | case3 => rfl
  | case4 rest _ ih =>
      have shape : ('.' :: '/' :: rest).reverse = rest.reverse ++ '/' :: ['.'] := by simp
      rw [ih, shape, head?_pieces_append]
  | case5 => rfl

private theorem names_trimEnd (reversed : List Char) :
    names (String.ofList (trimEnd reversed).reverse) = names (String.ofList reversed.reverse) := by
  rw [names_eq, names_eq, steps, steps, String.toList_ofList, String.toList_ofList,
    head?_pieces_trimEnd, named_trimEnd]

/-- A trimmed path is empty, the root, or ends with a name. -/
theorem trimEnd_cases (reversed : List Char) :
    trimEnd reversed = [] ∨ trimEnd reversed = ['/'] ∨
      ∃ last rest, trimEnd reversed = last :: rest ∧ last ≠ '/' ∧
        (last = '.' → rest.head? ≠ some '/') := by
  fun_induction trimEnd reversed with
  | case1 => exact .inr (.inl rfl)
  | case2 rest _ ih => exact ih
  | case3 => exact .inr (.inl rfl)
  | case4 rest _ ih => exact ih
  | case5 reversed root slash dottedRoot dotted =>
      cases reversed with
      | nil => exact .inl rfl
      | cons last rest =>
          refine .inr (.inr ⟨last, rest, rfl, ?_, ?_⟩)
          · rintro rfl
            exact slash rest rfl
          · rintro rfl following
            cases rest with
            | nil => cases following
            | cons next rest =>
                cases following
                exact dotted rest rfl

private theorem names_of_no_slash {name : List Char} (present : name ≠ []) (plain : '/' ∉ name) :
    names (String.ofList name) = [String.ofList name] := by
  rw [names_eq, steps, String.toList_ofList, pieces_of_not_mem plain]
  by_cases dot : name = ['.']
  · subst dot
    rfl
  · simp [isIdle, present, dot]

private theorem names_append {name : List Char} (front : List Char) (named : IsName name) :
    names (String.ofList (front ++ '/' :: name)) =
      names (String.ofList (front ++ ['/'])) ++ [String.ofList name] := by
  rw [names_eq, names_eq, steps, steps, String.toList_ofList, String.toList_ofList,
    head?_pieces_append, head?_pieces_append, pieces_append, pieces_append,
    pieces_of_not_mem named.plain]
  simp [isIdle, named.present, named.noDot, pieces]

/-- What is left of a reversed path behind its first slash. -/
theorem dropWhile_slash_cases (reversed : List Char) :
    ('/' ∉ reversed ∧ reversed.dropWhile (· != '/') = []) ∨
      ∃ name more, reversed = name ++ '/' :: more ∧ '/' ∉ name ∧
        reversed.dropWhile (· != '/') = '/' :: more := by
  induction reversed with
  | nil => exact .inl ⟨by simp, rfl⟩
  | cons char rest ih =>
      by_cases slash : char = '/'
      · subst slash
        exact .inr ⟨[], rest, rfl, by simp, rfl⟩
      · have kept : (char :: rest).dropWhile (· != '/') = rest.dropWhile (· != '/') := by
          simp [slash]
        rw [kept]
        obtain ⟨plain, dropped⟩ | ⟨name, more, rfl, plain, dropped⟩ := ih
        · exact .inl ⟨by simp [Ne.symm slash, plain], dropped⟩
        · exact .inr ⟨char :: name, more, rfl, by simp [Ne.symm slash, plain], dropped⟩

private theorem parent?_of_trimEnd {last : Char} {rest : List Char}
    (ended : trimEnd path.toList.reverse = last :: rest) (notSlash : last ≠ '/') :
    parent? path =
      some (String.ofList (trimEnd ((last :: rest).dropWhile (· != '/'))).reverse) := by
  rw [parent?, ended]
  split
  · rename_i same
    cases same
  · rename_i same
    cases same
    exact absurd rfl notSlash
  · rfl

private theorem names_trimmed (path : String) :
    names path = names (String.ofList (trimEnd path.toList.reverse).reverse) := by
  rw [names_trimEnd, List.reverse_reverse, String.ofList_toList]

/-- Only a path without names has no parent, and a parent has one name less. -/
theorem parent?_cases (path : String) :
    (parent? path = none ∧ names path = []) ∨
      ∃ higher, parent? path = some higher ∧ ∃ name, names path = names higher ++ [name] := by
  rw [names_trimmed path]
  obtain ended | ended | ⟨last, rest, ended, notSlash, notDot⟩ := trimEnd_cases path.toList.reverse
  · rw [parent?, ended]
    exact .inl ⟨rfl, rfl⟩
  · rw [parent?, ended]
    exact .inl ⟨rfl, rfl⟩
  · rw [parent?_of_trimEnd ended notSlash, ended]
    refine .inr ⟨_, rfl, ?_⟩
    rw [names_trimEnd]
    obtain ⟨plain, dropped⟩ | ⟨name, more, shape, plain, dropped⟩ :=
      dropWhile_slash_cases (last :: rest)
    · rw [dropped]
      exact ⟨_, names_of_no_slash (by simp) (mt List.mem_reverse.mp plain)⟩
    · have named : IsName name.reverse := by
        constructor
        · rw [List.reverse_ne_nil_iff]
          rintro rfl
          cases shape
          exact notSlash rfl
        · simpa using plain
        · intro dot
          obtain rfl : name = ['.'] := by simpa using congrArg List.reverse dot
          cases shape
          exact notDot rfl rfl
      have reversed : (name ++ '/' :: more).reverse = more.reverse ++ '/' :: name.reverse := by simp
      rw [dropped, shape, reversed, List.reverse_cons]
      exact ⟨_, names_append more.reverse named⟩

private theorem names_of_top (top : parent? path = none) : names path = [] := by
  obtain ⟨-, nameless⟩ | ⟨_, found, -⟩ := parent?_cases path
  · exact nameless
  · rw [top] at found
    cases found

private theorem names_of_parent? (parent : parent? path = some higher) :
    ∃ name, names path = names higher ++ [name] := by
  obtain ⟨top, -⟩ | ⟨_, found, shorter⟩ := parent?_cases path
  · rw [parent] at top
    cases top
  · rw [parent] at found
    cases found
    exact shorter

/-! ## The way up -/

/-- The paths from `path` up to one without a parent, each the parent of the one before. -/
inductive Climbs : String → List String → Prop
  | top {path : String} : parent? path = none → Climbs path [path]
  | step {path higher : String} {others : List String} : parent? path = some higher →
      Climbs higher others → Climbs path (path :: others)

private theorem length_lt_of_parent? (parent : parent? path = some higher) :
    higher.length < path.length := by
  obtain ⟨start, -⟩ := startsLike_of_parent? parent
  obtain ⟨name, shorter⟩ := names_of_parent? parent
  have differs : higher.toList ≠ path.toList := by
    intro same
    rw [String.toList_inj.mp same] at shorter
    simp at shorter
  rw [← String.length_toList, ← String.length_toList]
  exact Nat.lt_of_le_of_ne start.length_le fun same => differs (start.eq_of_length same)

private theorem climbs_ancestorsWithin {limit : Nat} (short : path.length ≤ limit) :
    Climbs path (ancestorsWithin limit path) := by
  induction limit generalizing path with
  | zero =>
      obtain rfl : path = "" := by simpa using short
      exact .top rfl
  | succ limit ih =>
      rw [ancestorsWithin]
      cases parent : parent? path with
      | none => exact .top parent
      | some higher =>
          have shorter := length_lt_of_parent? parent
          exact .step parent (ih (by omega))

private theorem climbs_ancestors (path : String) : Climbs path (ancestors path) :=
  climbs_ancestorsWithin (Nat.le_refl _)

/-- On the way up, the names of the paths are the initial parts of those of the first path. -/
theorem Climbs.map_names {directories : List String} (climbs : Climbs path directories) :
    directories.map names = (names path).inits.reverse := by
  induction climbs with
  | top parent => simp [names_of_top parent]
  | step parent _ ih =>
      obtain ⟨name, shorter⟩ := names_of_parent? parent
      rw [List.map_cons, ih, shorter, List.inits_append]
      simp

end Path

/-! ## Searching -/

namespace Machine

open Project

/-- In the directory, something stands where its configuration would: a file or a directory. -/
def HasEntry (machine : Machine) (directory : String) : Prop :=
  ∃ location, machine.Leads (Path.join directory Config.fileName) location ∧
    machine.disk.standing? location ≠ none

/-- What comes of a search that ends in the directory. -/
inductive Decides (machine : Machine) (directory : String) :
    Except Failure (Config × String) → Prop
  | configured {source : String} {config : Config} :
      machine.readText (Path.join directory Config.fileName) = .ok source →
      Config.parse source = .ok config → Decides machine directory (.ok (config, directory))
  | unreadable {fault : DiskFault} :
      machine.readText (Path.join directory Config.fileName) = .error fault →
      Decides machine directory (.error (.read (Path.join directory Config.fileName) fault))
  | malformed {source : String} {cause : Toml.Error} :
      machine.readText (Path.join directory Config.fileName) = .ok source →
      Config.parse source = .error cause → Decides machine directory (.error (.parseConfig cause))

variable {machine : Machine} {directory root : String} {nearer directories : List String}

private theorem getLast?_join_config (directory : String) :
    (Path.join directory Config.fileName).toList.getLast? ≠ some '/' :=
  (plain_config.continues directory).unslashed

private theorem hasEntry_iff :
    machine.HasEntry directory ↔
      machine.pathExists (Path.join directory Config.fileName) = true := by
  constructor
  · intro ⟨location, leads, standing⟩
    exact pathExists_of_standing leads (getLast?_join_config directory) standing
  · exact standing_of_pathExists

private theorem findAmong_append (missing : ∀ directory ∈ nearer, ¬ machine.HasEntry directory)
    (others : List String) :
    (findAmong (nearer ++ others) : Simulated (Except Failure (Config × String))) machine =
      (findAmong others : Simulated (Except Failure (Config × String))) machine := by
  induction nearer with
  | nil => rfl
  | cons directory rest ih =>
      obtain ⟨first, later⟩ := List.forall_mem_cons.mp missing
      rw [hasEntry_iff, Bool.not_eq_true] at first
      rw [← ih later]
      simp [findAmong, first]

/-- An entry ends the search, also one that cannot be used. -/
theorem decides_of_hasEntry (entry : machine.HasEntry root) (farther : List String) :
    ∃ outcome, (findAmong (root :: farther) :
        Simulated (Except Failure (Config × String))) machine = (outcome, machine) ∧
      machine.Decides root outcome := by
  rw [hasEntry_iff] at entry
  cases read : machine.readText (Path.join root Config.fileName) with
  | error fault =>
      exact ⟨_, by simp [findAmong, loadConfig, entry, read], .unreadable read⟩
  | ok source =>
      cases parsed : Config.parse source with
      | error cause =>
          exact ⟨_, by simp [findAmong, loadConfig, entry, read, parsed], .malformed read parsed⟩
      | ok config =>
          exact ⟨_, by simp [findAmong, loadConfig, entry, read, parsed], .configured read parsed⟩

private theorem exists_nearest (member : directory ∈ directories)
    (entry : machine.HasEntry directory) :
    ∃ nearer root farther, directories = nearer ++ root :: farther ∧
      (∀ directory ∈ nearer, ¬ machine.HasEntry directory) ∧ machine.HasEntry root := by
  induction directories with
  | nil => cases member
  | cons first others ih =>
      by_cases here : machine.HasEntry first
      · exact ⟨[], first, others, rfl, by simp, here⟩
      · cases member with
        | head => exact absurd entry here
        | tail _ later =>
            obtain ⟨nearer, root, farther, rfl, missing, found⟩ := ih later
            exact ⟨first :: nearer, root, farther, rfl, List.forall_mem_cons.mpr ⟨here, missing⟩,
              found⟩

theorem Decides.chain_ne_singleton {failure : Failure}
    (decides : machine.Decides root (.error failure)) (message : String) :
    failure.chain ≠ [message] := by
  cases decides <;> simp [Failure.chain]

/-- The search for a configuration goes from a directory to its parent, and on, each time to a
directory with one name less, until no name is left. It changes nothing. The first directory on this
way that has an entry for the configuration decides alone, also when the entry cannot be read or is
no configuration, and whatever there is farther up. The message that there is no configuration comes
just when no directory on the way has an entry. -/
theorem nearest_entry_decides (machine : Machine) (start : String) :
    Path.Climbs start (Path.ancestors start) ∧
    (Path.ancestors start).map Path.names = (Path.names start).inits.reverse ∧
    ∃ outcome, (findFrom start : Simulated (Except Failure (Config × String))) machine =
        (outcome, machine) ∧
      (∀ nearer root farther, Path.ancestors start = nearer ++ root :: farther →
        (∀ directory ∈ nearer, ¬ machine.HasEntry directory) → machine.HasEntry root →
        machine.Decides root outcome) ∧
      ((∃ failure, outcome = .error failure ∧ failure.chain =
          ["Could not find sema.toml in current directory or any parent directory"]) ↔
        ∀ directory ∈ Path.ancestors start, ¬ machine.HasEntry directory) := by
  have climbs := Path.climbs_ancestors start
  obtain ⟨outcome, ran, -⟩ := findAmong_spec (Path.ancestors start) machine
  have decided (nearer : List String) (root : String) (farther : List String)
      (split : Path.ancestors start = nearer ++ root :: farther)
      (missing : ∀ directory ∈ nearer, ¬ machine.HasEntry directory)
      (entry : machine.HasEntry root) : machine.Decides root outcome := by
    obtain ⟨result, found, decides⟩ := decides_of_hasEntry entry farther
    rw [split, findAmong_append missing, found] at ran
    cases ran
    exact decides
  refine ⟨climbs, climbs.map_names, outcome, ran, decided, ?_, ?_⟩
  · intro ⟨failure, failed, message⟩ directory member entry
    obtain ⟨nearer, root, farther, split, missing, found⟩ := exists_nearest member entry
    have decides := decided nearer root farther split missing found
    rw [failed] at decides
    exact decides.chain_ne_singleton _ message
  · intro missing
    have none := findAmong_append missing []
    rw [List.append_nil, ran] at none
    cases none
    exact ⟨.noConfig, rfl, rfl⟩

end Machine

end TreeCheck
