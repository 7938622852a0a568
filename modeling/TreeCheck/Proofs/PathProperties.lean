import Mathlib.Algebra.GroupWithZero.Nat
import TreeCheck.Disk.Machine

/-!
# Names in paths

The operations on paths work on texts, while a file system follows the names between the slashes.
Joining two paths joins their names, and the paths above a path have a first part of its names. The
names of an absolute path together with a slash before each are no longer than the path.
-/

set_option autoImplicit false

namespace TreeCheck.Path

/-! ## Pieces -/

theorem pieces_ne_nil (chars : List Char) : pieces chars ≠ [] := by
  cases chars with
  | nil => simp [pieces]
  | cons char rest =>
      simp only [pieces]
      split
      · simp
      · split <;> simp

theorem pieces_append (front back : List Char) :
    pieces (front ++ '/' :: back) = pieces front ++ pieces back := by
  induction front with
  | nil => simp [pieces]
  | cons char rest ih =>
      by_cases slash : char = '/'
      · simp [pieces, slash, ih]
      · obtain ⟨piece, others, shape⟩ := List.exists_cons_of_ne_nil (pieces_ne_nil rest)
        simp [pieces, slash, ih, shape]

theorem pieces_of_not_mem {chars : List Char} (plain : '/' ∉ chars) : pieces chars = [chars] := by
  induction chars with
  | nil => simp [pieces]
  | cons char rest ih =>
      obtain ⟨other, others⟩ : '/' ≠ char ∧ '/' ∉ rest := by simpa using plain
      simp [pieces, Ne.symm other, ih others]

/-- The slashes are gone, and nothing else has been added or lost. -/
theorem mem_of_mem_pieces {chars piece : List Char} {char : Char}
    (member : piece ∈ pieces chars) (within : char ∈ piece) : char ∈ chars ∧ char ≠ '/' := by
  induction chars generalizing piece with
  | nil => simp_all [pieces]
  | cons first rest ih =>
      obtain ⟨head, others, shape⟩ := List.exists_cons_of_ne_nil (pieces_ne_nil rest)
      by_cases slash : first = '/'
      · simp only [pieces, slash, if_true, List.mem_cons] at member
        rcases member with rfl | member
        · simp at within
        · exact ⟨List.mem_cons_of_mem _ (ih member within).1, (ih member within).2⟩
      · simp only [pieces, slash, if_false, shape, List.mem_cons] at member
        rcases member with rfl | member
        · rcases List.mem_cons.mp within with rfl | within
          · exact ⟨List.mem_cons_self, slash⟩
          · have found := ih (shape ▸ List.mem_cons_self) within
            exact ⟨List.mem_cons_of_mem _ found.1, found.2⟩
        · have found := ih (shape ▸ List.mem_cons_of_mem _ member) within
          exact ⟨List.mem_cons_of_mem _ found.1, found.2⟩

/-! ## Names that lead somewhere -/

/-- The names that a path goes through, its single dots left out. -/
def steps (path : String) : List String :=
  ((pieces path.toList).filter (!isIdle ·)).map String.ofList

theorem filter_pathNames (path : String) :
    (Machine.pathNames path).filter (· != ".") = steps path := by
  have dot (piece : List Char) : (String.ofList piece == ".") = (piece == ['.']) := by
    rw [Bool.eq_iff_iff, beq_iff_eq, beq_iff_eq, ← String.toList_inj]
    simp
  simp only [Machine.pathNames, steps, List.filter_map, List.filter_filter]
  congr 1
  apply List.filter_congr
  intro piece _
  simp [dot, isIdle, bne, Bool.and_comm]

theorem of_mem_pathNames {path name : String} (member : name ∈ Machine.pathNames path) :
    name ≠ "" ∧ ∀ char ∈ name.toList, char ∈ path.toList ∧ char ≠ '/' := by
  obtain ⟨piece, found, rfl⟩ := List.mem_map.mp member
  obtain ⟨within, filled⟩ := List.mem_filter.mp found
  constructor
  · simpa using filled
  · intro char inside
    exact mem_of_mem_pieces within (by simpa using inside)

variable {path higher base : String}

theorem named_trimEnd (reversed : List Char) :
    (pieces (trimEnd reversed).reverse).filter (!isIdle ·) =
      (pieces reversed.reverse).filter (!isIdle ·) := by
  fun_induction trimEnd reversed with
  | case1 => rfl
  | case2 rest _ ih =>
      have shape : ('/' :: rest).reverse = rest.reverse ++ '/' :: [] := by simp
      rw [ih, shape, pieces_append]
      simp [pieces, isIdle]
  | case3 => rfl
  | case4 rest _ ih =>
      have shape : ('.' :: '/' :: rest).reverse = rest.reverse ++ '/' :: ['.'] := by simp
      rw [ih, shape, pieces_append]
      simp [pieces, isIdle]
  | case5 => rfl

private theorem trimEnd_suffix (reversed : List Char) : trimEnd reversed <:+ reversed := by
  fun_induction trimEnd reversed with
  | case1 => exact List.suffix_refl _
  | case2 rest _ ih => exact ih.trans (List.suffix_cons _ _)
  | case3 => exact List.suffix_cons _ _
  | case4 rest _ ih => exact (ih.trans (List.suffix_cons _ _)).trans (List.suffix_cons _ _)
  | case5 => exact List.suffix_refl _

private theorem named_dropWhile (reversed : List Char) :
    (pieces (reversed.dropWhile (· != '/')).reverse).filter (!isIdle ·) <+:
      (pieces reversed.reverse).filter (!isIdle ·) := by
  have split := List.takeWhile_append_dropWhile (p := (· != '/')) (l := reversed)
  cases rest : reversed.dropWhile (· != '/') with
  | nil => simp [pieces, isIdle]
  | cons slash more =>
      have isSlash : slash = '/' := by
        have stops := List.head_dropWhile_not (p := (· != '/')) (l := reversed) (by simp [rest])
        simpa [rest] using stops
      rw [rest, isSlash] at split
      rw [isSlash, ← split]
      simp [pieces_append, pieces, isIdle]

theorem startsLike_of_parent? (parent : parent? path = some higher) :
    higher.toList <+: path.toList ∧ steps higher <+: steps path := by
  obtain ⟨trimmed, ended⟩ : ∃ trimmed, trimEnd path.toList.reverse = trimmed := ⟨_, rfl⟩
  obtain ⟨shorter, dropped⟩ :
      ∃ shorter, trimEnd (trimmed.dropWhile (· != '/')) = shorter := ⟨_, rfl⟩
  have found : higher = String.ofList shorter.reverse := by
    unfold parent? at parent
    rw [ended] at parent
    split at parent
    · cases parent
    · cases parent
    · rw [← dropped]
      exact (Option.some.inj parent).symm
  have named := named_dropWhile trimmed
  rw [← named_trimEnd, dropped, ← ended, named_trimEnd, List.reverse_reverse] at named
  constructor
  · have whole : shorter <:+ path.toList.reverse := by
      rw [← dropped, ← ended]
      exact ((trimEnd_suffix _).trans (List.dropWhile_suffix _)).trans (trimEnd_suffix _)
    rw [found, String.toList_ofList, ← List.reverse_suffix, List.reverse_reverse]
    exact whole
  · rw [found, steps, String.toList_ofList]
    exact named.map _

private theorem startsLike_of_mem_ancestorsWithin {limit : Nat}
    (member : higher ∈ ancestorsWithin limit path) :
    higher.toList <+: path.toList ∧ steps higher <+: steps path := by
  induction limit generalizing path with
  | zero =>
      obtain rfl : higher = path := by simpa [ancestorsWithin] using member
      exact ⟨List.prefix_refl _, List.prefix_refl _⟩
  | succ limit ih =>
      rw [ancestorsWithin] at member
      cases parent : parent? path with
      | none =>
          obtain rfl : higher = path := by simpa [parent] using member
          exact ⟨List.prefix_refl _, List.prefix_refl _⟩
      | some next =>
          obtain rfl | further : higher = path ∨ higher ∈ ancestorsWithin limit next := by
            simpa [parent] using member
          · exact ⟨List.prefix_refl _, List.prefix_refl _⟩
          · obtain ⟨text, named⟩ := startsLike_of_parent? parent
            obtain ⟨textAbove, namedAbove⟩ := ih further
            exact ⟨textAbove.trans text, namedAbove.trans named⟩

/-- The paths above a path, nearest first. -/
def above (path : String) : List String :=
  (parent? path).toList.flatMap ancestors

theorem startsLike_of_mem_above (member : higher ∈ above path) :
    higher.toList <+: path.toList ∧ steps higher <+: steps path := by
  cases parent : parent? path with
  | none => simp [above, parent] at member
  | some next =>
      obtain ⟨text, named⟩ := startsLike_of_parent? parent
      have within : higher ∈ ancestors next := by simpa [above, parent] using member
      obtain ⟨textAbove, namedAbove⟩ := startsLike_of_mem_ancestorsWithin within
      exact ⟨textAbove.trans text, namedAbove.trans named⟩

theorem ancestors_eq_cons (path : String) : ∃ others, ancestors path = path :: others := by
  unfold ancestors
  cases path.length with
  | zero => exact ⟨[], rfl⟩
  | succ limit =>
      rw [ancestorsWithin]
      cases parent? path with
      | none => exact ⟨[], rfl⟩
      | some higher => exact ⟨_, rfl⟩

theorem isAbsolute_eq_of_startsLike (first : higher.toList <+: path.toList)
    (present : higher ≠ "") : isAbsolute higher = isAbsolute path := by
  obtain ⟨rest, split⟩ := first
  have front : higher.toList ≠ [] := by simpa using present
  obtain ⟨char, more, shape⟩ := List.exists_cons_of_ne_nil front
  simp [isAbsolute, ← split, shape]

/-! ## Joined paths -/

/-- A path up to the slash that joins it to another. -/
def stem (base : String) : List Char :=
  if base.toList.getLast? = some '/' then base.toList.dropLast else base.toList

theorem stem_cases (base : String) :
    base.toList = stem base ++ ['/'] ∨ base.toList = stem base := by
  unfold stem
  split
  · rename_i slash
    obtain ⟨front, shape⟩ := List.getLast?_eq_some_iff.mp slash
    simp [shape]
  · simp

theorem toList_join (present : base ≠ "") (relative : isAbsolute path = false) :
    (join base path).toList = stem base ++ '/' :: path.toList := by
  have filled : base.toList.isEmpty = false := by simpa using present
  unfold join stem
  rw [relative, filled]
  by_cases slash : base.toList.getLast? = some '/'
  · obtain ⟨front, shape⟩ := List.getLast?_eq_some_iff.mp slash
    simp [shape]
  · simp [slash]

theorem pathNames_join (present : base ≠ "") (relative : isAbsolute path = false) :
    Machine.pathNames (join base path) = Machine.pathNames base ++ Machine.pathNames path := by
  unfold Machine.pathNames
  rw [toList_join present relative, pieces_append]
  rcases stem_cases base with shape | shape
  · simp [shape, pieces_append, pieces]
  · simp [← shape]

theorem startsLike_join (present : base ≠ "") (relative : isAbsolute path = false) :
    base.toList <+: (join base path).toList := by
  rw [toList_join present relative]
  rcases stem_cases base with shape | shape
  · exact ⟨path.toList, by simp [shape]⟩
  · exact ⟨'/' :: path.toList, by rw [← shape]⟩

/-- What joining puts before a relative path. -/
def lead (base : String) : String :=
  if base.toList.isEmpty || base.toList.getLast? == some '/' then base else base ++ "/"

theorem join_eq_lead_append (base : String) (relative : isAbsolute path = false) :
    join base path = lead base ++ path := by
  unfold join lead
  rw [relative, if_neg Bool.false_ne_true, apply_ite (· ++ path)]

/-- A text that can stand for an entry of a directory. -/
structure IsName (name : List Char) : Prop where
  present : name ≠ []
  plain : '/' ∉ name
  noDot : name ≠ ['.']

private theorem trimEnd_of_isName {name : List Char} (named : IsName name) (rest : List Char) :
    trimEnd (name.reverse ++ rest) = name.reverse ++ rest := by
  obtain ⟨last, more, shape⟩ :=
    List.exists_cons_of_ne_nil (List.reverse_ne_nil_iff.mpr named.present)
  have plain : '/' ∉ last :: more := by
    rw [← shape, List.mem_reverse]
    exact named.plain
  have noDot : last :: more ≠ ['.'] := by
    rw [← shape]
    exact fun same => named.noDot (by simpa using congrArg List.reverse same)
  rw [shape]
  cases more with
  | nil =>
      unfold trimEnd
      split <;> simp_all
  | cons next others =>
      unfold trimEnd
      split <;> simp_all

theorem parent?_of_isName {front above name : List Char} (named : IsName name)
    (namedAbove : IsName above) (shape : path.toList = front ++ above ++ '/' :: name) :
    parent? path = some (String.ofList (front ++ above)) := by
  have reversed : path.toList.reverse =
      name.reverse ++ '/' :: (above.reverse ++ front.reverse) := by simp [shape]
  have trimmed := trimEnd_of_isName named ('/' :: (above.reverse ++ front.reverse))
  have dropped : (name.reverse ++ '/' :: (above.reverse ++ front.reverse)).dropWhile (· != '/') =
      '/' :: (above.reverse ++ front.reverse) := by
    rw [List.dropWhile_append_of_pos]
    · simp
    · intro char member
      have plain := named.plain
      simp only [bne_iff_ne, ne_eq]
      rintro rfl
      exact plain (List.mem_reverse.mp member)
  have trimmedAbove : trimEnd ('/' :: (above.reverse ++ front.reverse)) =
      above.reverse ++ front.reverse := by
    rw [trimEnd, trimEnd_of_isName namedAbove]
    simp [namedAbove.present]
  unfold parent?
  rw [reversed, trimmed]
  split
  · rename_i empty
    simp at empty
  · rename_i slash
    have plain := named.plain
    simp_all
  · rw [dropped, trimmedAbove]
    simp

/-! ## Absolute paths and their length -/

/-- The bytes of names, each with a slash. -/
def span (names : List String) : Nat :=
  (names.map fun name => name.utf8ByteSize + 1).sum

@[simp] theorem span_nil : span [] = 0 := rfl

@[simp] theorem span_cons (name : String) (names : List String) :
    span (name :: names) = name.utf8ByteSize + 1 + span names := by
  simp [span]

@[simp] theorem span_append (names others : List String) :
    span (names ++ others) = span names + span others := by
  simp [span]

private theorem utf8ByteSize_ofList_cons (char : Char) (chars : List Char) :
    (String.ofList (char :: chars)).utf8ByteSize =
      (String.ofList [char]).utf8ByteSize + (String.ofList chars).utf8ByteSize := by
  rw [← String.utf8ByteSize_append, ← String.ofList_append, List.singleton_append]

private theorem span_pieces (chars : List Char) :
    span ((pieces chars).map String.ofList) = (String.ofList chars).utf8ByteSize + 1 := by
  induction chars with
  | nil => simp [pieces]
  | cons char rest ih =>
      by_cases slash : char = '/'
      · have one : (String.ofList ['/']).utf8ByteSize = 1 := rfl
        have none : (String.ofList []).utf8ByteSize = 0 := rfl
        simp only [pieces, slash, if_true, List.map_cons, span_cons, ih, none,
          utf8ByteSize_ofList_cons '/' rest, one]
        omega
      · obtain ⟨piece, others, shape⟩ := List.exists_cons_of_ne_nil (pieces_ne_nil rest)
        rw [shape, List.map_cons, span_cons] at ih
        simp only [pieces, slash, if_false, shape, List.map_cons, span_cons,
          utf8ByteSize_ofList_cons char rest, utf8ByteSize_ofList_cons char piece]
        omega

theorem span_le_of_sublist {names others : List String} (kept : names.Sublist others) :
    span names ≤ span others := by
  induction kept with
  | slnil => exact Nat.le_refl _
  | cons name _ ih =>
      rw [span_cons]
      omega
  | cons_cons name _ ih =>
      rw [span_cons, span_cons]
      omega

theorem span_pathNames_le (absolute : isAbsolute path = true) :
    span (Machine.pathNames path) ≤ path.utf8ByteSize := by
  obtain ⟨rest, shape⟩ : ∃ rest, path.toList = '/' :: rest := by
    rw [isAbsolute, beq_iff_eq] at absolute
    exact List.head?_eq_some_iff.mp absolute
  have whole := span_pieces path.toList
  have kept : span (((pieces rest).filter (· != [])).map String.ofList) ≤
      span ((pieces rest).map String.ofList) := span_le_of_sublist (List.filter_sublist.map _)
  have none : (String.ofList []).utf8ByteSize = 0 := rfl
  rw [String.ofList_toList] at whole
  simp only [shape, pieces, if_true, List.map_cons, span_cons, none] at whole
  have names : Machine.pathNames path = ((pieces rest).filter (· != [])).map String.ofList := by
    simp [Machine.pathNames, shape, pieces]
  rw [names]
  omega

theorem utf8ByteSize_join (present : base ≠ "") (relative : isAbsolute path = false) :
    (join base path).utf8ByteSize =
      (String.ofList (stem base)).utf8ByteSize + 1 + path.utf8ByteSize := by
  have whole : join base path = String.ofList (stem base) ++ "/" ++ path := by
    rw [← String.toList_inj, toList_join present relative]
    simp
  have one : "/".utf8ByteSize = 1 := rfl
  rw [whole, String.utf8ByteSize_append, String.utf8ByteSize_append, one]

theorem utf8ByteSize_stem_le (base : String) :
    (String.ofList (stem base)).utf8ByteSize ≤ base.utf8ByteSize := by
  rcases stem_cases base with shape | shape
  · have whole : base = String.ofList (stem base) ++ "/" := by
      rw [← String.toList_inj]
      simpa using shape
    have size := congrArg String.utf8ByteSize whole
    rw [String.utf8ByteSize_append] at size
    omega
  · exact Nat.le_of_eq (by rw [← shape, String.ofList_toList])

private theorem intercalate_cons_cons (part next : List Char) (more : List (List Char)) :
    ['/'].intercalate (part :: next :: more) =
      part ++ '/' :: ['/'].intercalate (next :: more) := by
  simp [List.intercalate, List.intersperse]

private theorem pieces_intercalate {parts : List (List Char)} (plain : ∀ part ∈ parts, '/' ∉ part)
    (some : parts ≠ []) : pieces (['/'].intercalate parts) = parts := by
  induction parts with
  | nil => contradiction
  | cons part rest ih =>
      obtain ⟨first, others⟩ := List.forall_mem_cons.mp plain
      cases rest with
      | nil => simpa using pieces_of_not_mem first
      | cons next more =>
          rw [intercalate_cons_cons, pieces_append, pieces_of_not_mem first, ih others (by simp)]
          rfl

private theorem pieces_absolutePath {location : Location}
    (plain : ∀ name ∈ location, '/' ∉ name.toList)
    (some : location ≠ []) :
    pieces (Machine.absolutePath location).toList = [] :: location.map String.toList := by
  have parts : ∀ part ∈ location.map String.toList, '/' ∉ part := by simpa using plain
  have split := pieces_intercalate parts (by simpa using some)
  simp [Machine.absolutePath, String.toList_intercalate, pieces, split]

theorem pathNames_absolutePath {location : Location}
    (plain : ∀ name ∈ location, '/' ∉ name.toList) (filled : ∀ name ∈ location, name ≠ "") :
    Machine.pathNames (Machine.absolutePath location) = location := by
  cases location with
  | nil => rfl
  | cons name rest =>
      have kept : ((name :: rest).map String.toList).filter (· != []) =
          (name :: rest).map String.toList := by
        apply List.filter_eq_self.mpr
        intro part member
        obtain ⟨found, within, rfl⟩ := List.mem_map.mp member
        simpa using filled found within
      rw [Machine.pathNames, pieces_absolutePath plain (by simp)]
      simp only [List.filter_cons, bne_self_eq_false, Bool.false_eq_true, if_false]
      rw [kept]
      simp [Function.comp_def]

theorem utf8ByteSize_absolutePath {location : Location}
    (plain : ∀ name ∈ location, '/' ∉ name.toList) (some : location ≠ []) :
    (Machine.absolutePath location).utf8ByteSize = span location := by
  have whole := span_pieces (Machine.absolutePath location).toList
  have none : (String.ofList []).utf8ByteSize = 0 := rfl
  simp only [String.ofList_toList, pieces_absolutePath plain some, List.map_cons, List.map_map,
    Function.comp_def, List.map_id_fun', id_eq, span_cons, none] at whole
  omega

private theorem mem_intercalate {parts : List (List Char)} {char : Char}
    (member : char ∈ ['/'].intercalate parts) : char = '/' ∨ ∃ part ∈ parts, char ∈ part := by
  induction parts with
  | nil => simp [List.intercalate] at member
  | cons part rest ih =>
      cases rest with
      | nil => exact .inr ⟨part, List.mem_cons_self, by simpa [List.intercalate] using member⟩
      | cons next more =>
          rw [intercalate_cons_cons, List.mem_append, List.mem_cons] at member
          obtain inside | slash | further := member
          · exact .inr ⟨part, List.mem_cons_self, inside⟩
          · exact .inl slash
          · obtain slash | ⟨found, within, inside⟩ := ih further
            · exact .inl slash
            · exact .inr ⟨found, List.mem_cons_of_mem part within, inside⟩

theorem mem_absolutePath {location : Location} {char : Char}
    (member : char ∈ (Machine.absolutePath location).toList) :
    char = '/' ∨ ∃ name ∈ location, char ∈ name.toList := by
  have split : char = '/' ∨ char ∈ ['/'].intercalate (location.map String.toList) := by
    simpa [Machine.absolutePath, String.toList_intercalate] using member
  rcases split with slash | inside
  · exact .inl slash
  · simpa using mem_intercalate inside

end TreeCheck.Path
