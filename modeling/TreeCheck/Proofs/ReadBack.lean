import Mathlib.Data.List.Basic
import TreeCheck.Toml.Item
import TreeCheck.Toml.Writer

/-!
# Written strings are read back

A string is written in one of four forms, chosen by what it contains, and each form has a reader.
Whatever the choice, the reader of quotations returns the string and stops right behind it, as long
as no quote follows. Escapes are read alike in both forms that have them, and quotes are read alike
in both forms over several lines, so what is said about them is said once.
-/

set_option autoImplicit false

namespace TreeCheck.Toml

variable {reader : Reader (List Char)} {char quote : Char} {text rest : List Char}

/-! ## Escapes -/

private theorem digit?_hexChar {digit : Nat} (small : digit < 16) :
    digit? 16 (hexChar digit) = some digit := by
  revert digit
  decide

private theorem codePoint?_hexChar (small : char.toNat < 65536) :
    codePoint? [hexChar (char.toNat / 4096 % 16), hexChar (char.toNat / 256 % 16),
      hexChar (char.toNat / 16 % 16), hexChar (char.toNat % 16)] = some char := by
  have digits : ofDigits 16 [char.toNat / 4096 % 16, char.toNat / 256 % 16, char.toNat / 16 % 16,
      char.toNat % 16] = char.toNat := by
    simp only [ofDigits, List.foldl_cons, List.foldl_nil]
    omega
  have number : numeral? 16 [hexChar (char.toNat / 4096 % 16), hexChar (char.toNat / 256 % 16),
      hexChar (char.toNat / 16 % 16), hexChar (char.toNat % 16)] = some char.toNat := by
    simp [numeral?, digit?_hexChar, Nat.mod_lt, digits]
  rw [codePoint?, number]
  exact dif_pos char.valid

private theorem toNat_of_isControl (control : isControl char = true) : char.toNat < 128 := by
  simp [isControl, isPlain] at control
  omega

private theorem isPlain_of_not_isControl (plain : isControl char = false) (noLine : char ≠ '\n') :
    isPlain char = true := by
  simpa [isControl, noLine] using plain

/-- The reader takes plain characters as they are and understands the escapes that are written. -/
structure Unescapes (reader : Reader (List Char)) : Prop where
  plain : ∀ char rest, isPlain char = true → char ≠ '"' → char ≠ '\\' →
    reader (char :: rest) = withChar char (reader rest)
  short : ∀ char target rest, shortEscape? char = some target →
    reader ('\\' :: char :: rest) = withChar target (reader rest)
  point : ∀ a b c d target rest, codePoint? [a, b, c, d] = some target →
    reader ('\\' :: 'u' :: a :: b :: c :: d :: rest) = withChar target (reader rest)

private theorem basicString_unescapes : Unescapes basicString where
  plain char rest plain noQuote noEscape := by
    rw [basicString] <;> simp_all
  short char target rest known := by
    unfold shortEscape? at known
    split at known <;> cases known <;> rfl
  point a b c d target rest known := by
    rw [basicString, known]
    rfl

private theorem basicLines_unescapes : Unescapes (basicLines .none) where
  plain char rest plain noQuote noEscape := by
    have noReturn : char ≠ '\r' := by
      rintro rfl
      cases plain
    have noLine : char ≠ '\n' := by
      rintro rfl
      cases plain
    rw [basicLines] <;> simp_all
  short char target rest known := by
    unfold shortEscape? at known
    split at known <;> cases known <;> rfl
  point a b c d target rest known := by
    change (codePoint? [a, b, c, d]).bind _ = _
    rw [known]
    rfl

/-- A character is escaped by one more character or by its code point, or stands as it is. -/
theorem escape?_cases (char : Char) :
    (∃ short, escape? char = some ['\\', short] ∧ shortEscape? short = some char) ∨
    (escape? char = some (hexEscape char) ∧ isControl char = true) ∨
    (escape? char = none ∧ isControl char = false ∧ char ≠ '\\') := by
  unfold escape?
  split_ifs with backspace tab formFeed carriageReturn backslash control
  · exact .inl ⟨'b', rfl, congrArg some backspace.symm⟩
  · exact .inl ⟨'t', rfl, congrArg some tab.symm⟩
  · exact .inl ⟨'f', rfl, congrArg some formFeed.symm⟩
  · exact .inl ⟨'r', rfl, congrArg some carriageReturn.symm⟩
  · exact .inl ⟨'\\', rfl, congrArg some backslash.symm⟩
  · exact .inr (.inl ⟨rfl, control⟩)
  · exact .inr (.inr ⟨rfl, Bool.eq_false_iff.mpr control, backslash⟩)

theorem Unescapes.escape (unescapes : Unescapes reader) (noQuote : char ≠ '"')
    (noLine : char ≠ '\n') (rest : List Char) :
    reader ((escape? char).getD [char] ++ rest) = withChar char (reader rest) := by
  rcases escape?_cases char with ⟨short, escaped, known⟩ | ⟨escaped, control⟩ |
    ⟨escaped, plain, noEscape⟩
  · rw [escaped]
    exact unescapes.short short char rest known
  · have small := toNat_of_isControl control
    rw [escaped]
    exact unescapes.point _ _ _ _ char rest (codePoint?_hexChar (by omega))
  · rw [escaped]
    exact unescapes.plain char rest (isPlain_of_not_isControl plain noLine) noQuote noEscape

/-- What stands for a character starts with a backslash, or with the character itself. -/
theorem head?_escape (char : Char) (rest : List Char) :
    ((escape? char).getD [char] ++ rest).head? = some '\\' ∨
      (((escape? char).getD [char] ++ rest).head? = some char ∧ isControl char = false) := by
  rcases escape?_cases char with ⟨short, escaped, -⟩ | ⟨escaped, -⟩ | ⟨escaped, plain, -⟩
  · exact .inl (by rw [escaped]; rfl)
  · exact .inl (by rw [escaped]; rfl)
  · exact .inr ⟨by rw [escaped]; rfl, plain⟩

/-! ## One line -/

private theorem basicString_basicText (text rest : List Char) :
    basicString (basicText text ++ '"' :: rest) = some (text, rest) := by
  induction text with
  | nil => rfl
  | cons char text ih =>
      rw [basicText, List.flatMap_cons, ← basicText, List.append_assoc]
      split_ifs with newline quote
      · subst newline
        rw [List.cons_append, List.singleton_append, basicString_unescapes.short 'n' _ _ rfl, ih]
        rfl
      · subst quote
        rw [List.cons_append, List.singleton_append, basicString_unescapes.short '"' _ _ rfl, ih]
        rfl
      · rw [basicString_unescapes.escape quote newline, ih]
        rfl

private theorem literalString_text (plain : ∀ char ∈ text, isPlain char = true ∧ char ≠ '\'')
    (rest : List Char) : literalString (text ++ '\'' :: rest) = some (text, rest) := by
  induction text with
  | nil => rfl
  | cons char text ih =>
      obtain ⟨⟨shown, noQuote⟩, others⟩ := List.forall_mem_cons.mp plain
      rw [List.cons_append, literalString, if_pos shown, ih others]
      · rfl
      · exact noQuote

/-! ## Several lines -/

/-- Puts characters in front of what a reader has read. -/
def withChars (front : List Char) (read : Option (List Char × List Char)) :
    Option (List Char × List Char) :=
  read.map fun (text, rest) => (front ++ text, rest)

/-- The reader ends at three quotes, counts up to two quotes before them to the text, and takes
quotes as text elsewhere. -/
structure EndsAt (quote : Char) (reader : Reader (List Char)) : Prop where
  ending : ∀ count ≤ 2, ∀ rest, rest.head? ≠ some quote →
    reader (List.replicate (count + 3) quote ++ rest) = some (List.replicate count quote, rest)
  passing : ∀ rest, (∀ more, rest ≠ quote :: quote :: more) →
    reader (quote :: rest) = withChar quote (reader rest)

private theorem basicLines_endsAt : EndsAt '"' (basicLines .none) where
  ending count few rest clear := by
    obtain rfl | rfl | rfl : count = 0 ∨ count = 1 ∨ count = 2 := by omega
    · change basicLines .none ('"' :: '"' :: '"' :: rest) = some ([], rest)
      cases rest with
      | nil => rfl
      | cons next rest => rw [basicLines] <;> simp_all
    · change basicLines .none ('"' :: '"' :: '"' :: '"' :: rest) = some (['"'], rest)
      cases rest with
      | nil => rfl
      | cons next rest => rw [basicLines] <;> simp_all
    · rfl
  passing rest clear := by
    have shown : isPlain '"' = true := rfl
    rw [basicLines] <;> simp_all

private theorem literalLines_endsAt : EndsAt '\'' literalLines where
  ending count few rest clear := by
    obtain rfl | rfl | rfl : count = 0 ∨ count = 1 ∨ count = 2 := by omega
    · change literalLines ('\'' :: '\'' :: '\'' :: rest) = some ([], rest)
      cases rest with
      | nil => rfl
      | cons next rest => rw [literalLines] <;> simp_all
    · change literalLines ('\'' :: '\'' :: '\'' :: '\'' :: rest) = some (['\''], rest)
      cases rest with
      | nil => rfl
      | cons next rest => rw [literalLines] ; simp_all
    · rfl
  passing rest clear := by
    have shown : isPlain '\'' = true := rfl
    rw [literalLines] <;> simp_all

theorem EndsAt.quotes (ends : EndsAt quote reader) {count : Nat} (few : count ≤ 2)
    (clear : rest.head? ≠ some quote) :
    reader (List.replicate count quote ++ rest) =
      withChars (List.replicate count quote) (reader rest) := by
  have one : reader (quote :: rest) = withChar quote (reader rest) := by
    refine ends.passing rest ?_
    rintro more rfl
    exact clear rfl
  obtain rfl | rfl | rfl : count = 0 ∨ count = 1 ∨ count = 2 := by omega
  · cases found : reader rest <;> simp [withChars, found]
  · exact one
  · have two : reader (quote :: quote :: rest) = withChar quote (reader (quote :: rest)) := by
      refine ends.passing (quote :: rest) ?_
      rintro more same
      cases same
      exact clear rfl
    change reader (quote :: quote :: rest) = _
    rw [two, one]
    cases reader rest <;> rfl

private theorem basicLines_escape (noQuote : char ≠ '"') (rest : List Char) :
    basicLines .none ((escape? char).getD [char] ++ rest) =
      withChar char (basicLines .none rest) := by
  by_cases newline : char = '\n'
  · subst newline
    rfl
  · exact basicLines_unescapes.escape noQuote newline rest

private theorem literalLines_char (plain : isControl char = false) (noQuote : char ≠ '\'')
    (rest : List Char) : literalLines (char :: rest) = withChar char (literalLines rest) := by
  by_cases newline : char = '\n'
  · subst newline
    rfl
  · have shown := isPlain_of_not_isControl plain newline
    have noReturn : char ≠ '\r' := by
      rintro rfl
      cases plain
    rw [literalLines] <;> simp_all

private theorem basicLines_text (clear : rest.head? ≠ some '"') (text : List Char) {count : Nat}
    (few : count ≤ 2) :
    basicLines .none
        (List.replicate count '"' ++ (basicLinesText count text ++ (tripled '"' ++ rest))) =
      some (List.replicate count '"' ++ text, rest) := by
  induction text generalizing count with
  | nil =>
      have joined : List.replicate count '"' ++ (tripled '"' ++ rest) =
          List.replicate (count + 3) '"' ++ rest := by
        rw [List.replicate_add, List.append_assoc]
        rfl
      rw [basicLinesText, List.nil_append, joined, basicLines_endsAt.ending count few rest clear,
        List.append_nil]
  | cons char text ih =>
      have others := ih (Nat.zero_le 2)
      rw [List.replicate_zero, List.nil_append, List.nil_append] at others
      rw [basicLinesText]
      split_ifs with quote full
      · subst quote full
        rw [basicLines_endsAt.quotes (Nat.le_refl 2) (by simp), List.cons_append, List.cons_append,
          basicLines_unescapes.short '"' _ _ rfl, others]
        rfl
      · subst quote
        have longer := @ih (count + 1) (by omega)
        rw [List.replicate_succ', List.append_assoc, List.append_assoc] at longer
        exact longer
      · have opening := head?_escape char (basicLinesText 0 text ++ (tripled '"' ++ rest))
        rw [List.append_assoc, basicLines_endsAt.quotes few]
        · rw [basicLines_escape quote, others]
          rfl
        · rcases opening with escaped | ⟨same, -⟩
          · simp [escaped]
          · simpa [same] using quote

private theorem literalLines_text (clear : rest.head? ≠ some '\'') {count : Nat}
    (plain : ∀ char ∈ text, isControl char = false) (few : longestRun '\'' count text ≤ 2) :
    literalLines (List.replicate count '\'' ++ (text ++ (tripled '\'' ++ rest))) =
      some (List.replicate count '\'' ++ text, rest) := by
  induction text generalizing count with
  | nil =>
      have joined : List.replicate count '\'' ++ (tripled '\'' ++ rest) =
          List.replicate (count + 3) '\'' ++ rest := by
        rw [List.replicate_add, List.append_assoc]
        rfl
      rw [List.nil_append, joined, literalLines_endsAt.ending count few rest clear,
        List.append_nil]
  | cons char text ih =>
      obtain ⟨shown, others⟩ := List.forall_mem_cons.mp plain
      rw [longestRun] at few
      split_ifs at few with quote
      · subst quote
        have longer := ih others few
        rw [List.replicate_succ', List.append_assoc, List.append_assoc] at longer
        exact longer
      · obtain ⟨fewBefore, fewAfter⟩ := Nat.max_le.mp few
        have after := ih others fewAfter
        rw [List.replicate_zero, List.nil_append, List.nil_append] at after
        rw [literalLines_endsAt.quotes fewBefore (by simpa using quote), List.cons_append,
          literalLines_char shown quote, after]
        rfl

/-! ## All forms -/

private theorem plain_of_formOf_literal (form : formOf text = .literal) :
    ∀ char ∈ text, isPlain char = true ∧ char ≠ '\'' := by
  unfold formOf at form
  dsimp only at form
  split_ifs at form with basic literal
  simp only [Bool.and_eq_true, Bool.not_eq_true', List.any_eq_false, List.contains_eq_mem,
    decide_eq_false_iff_not] at literal
  obtain ⟨⟨controls, lines⟩, quotes⟩ := literal
  intro char member
  have noLine : char ≠ '\n' := fun same => lines (same ▸ member)
  exact ⟨isPlain_of_not_isControl (Bool.eq_false_iff.mpr (controls char member)) noLine,
    fun same => quotes (same ▸ member)⟩

private theorem plain_of_formOf_literalLines (form : formOf text = .literalLines) :
    (∀ char ∈ text, isControl char = false) ∧ longestRun '\'' 0 text ≤ 2 := by
  unfold formOf at form
  dsimp only at form
  split_ifs at form with basic literal basicLines literalLines
  simp only [Bool.and_eq_true, Bool.not_eq_true', List.any_eq_false, decide_eq_true_eq]
    at literalLines
  exact ⟨fun char member => Bool.eq_false_iff.mpr (literalLines.1 char member), literalLines.2⟩

private theorem dropLineEnd_leadingLine {body : List Char}
    (clear : '\n' ∉ text → body.head? ≠ some '\n' ∧ body.head? ≠ some '\r') :
    dropLineEnd (leadingLine text ++ body) = body := by
  by_cases lines : '\n' ∈ text
  · simp [leadingLine, lines, dropLineEnd]
  · obtain ⟨noLine, noReturn⟩ := clear lines
    cases body with
    | nil => simp [leadingLine, lines, dropLineEnd]
    | cons first body =>
        simp only [leadingLine, List.contains_eq_mem, lines, decide_false, Bool.false_eq_true,
          if_false, List.nil_append]
        rw [dropLineEnd] <;> simp_all

private theorem head?_basicLinesText (noLine : '\n' ∉ text) (rest : List Char) :
    (basicLinesText 0 text ++ (tripled '"' ++ rest)).head? ≠ some '\n' ∧
      (basicLinesText 0 text ++ (tripled '"' ++ rest)).head? ≠ some '\r' := by
  cases text with
  | nil => simp [basicLinesText, tripled]
  | cons char text =>
      rw [basicLinesText]
      split_ifs with quote impossible
      · cases impossible
      · simp
      · rw [List.append_assoc]
        rcases head?_escape char (basicLinesText 0 text ++ (tripled '"' ++ rest)) with
          escaped | ⟨same, plain⟩
        · simp [escaped]
        · rw [same]
          refine ⟨fun newline => noLine ?_, fun carriage => ?_⟩
          · simp_all
          · cases carriage
            cases plain

private theorem head?_literal (plain : ∀ char ∈ text, isControl char = false) (noLine : '\n' ∉ text)
    (rest : List Char) :
    (text ++ (tripled '\'' ++ rest)).head? ≠ some '\n' ∧
      (text ++ (tripled '\'' ++ rest)).head? ≠ some '\r' := by
  cases text with
  | nil => simp [tripled]
  | cons char text =>
      constructor
      · rintro ⟨⟩
        exact noLine List.mem_cons_self
      · rintro ⟨⟩
        cases plain '\r' List.mem_cons_self

private theorem quotation_basicString (noDouble : rest.head? ≠ some '"') (text : List Char) :
    quotation ('"' :: (basicText text ++ '"' :: rest)) =
      basicString (basicText text ++ '"' :: rest) := by
  refine quotation.eq_2 _ fun more same => ?_
  cases text with
  | nil =>
      obtain rfl : rest = '"' :: more := by simpa [basicText] using same
      exact noDouble rfl
  | cons char text =>
      rw [basicText, List.flatMap_cons, ← basicText, List.append_assoc] at same
      have first := congrArg List.head? same
      split_ifs at first with newline quote
      · cases first
      · cases first
      · rcases head?_escape char (basicText text ++ '"' :: rest) with escaped | ⟨plain, -⟩
        · rw [escaped] at first
          cases first
        · rw [plain] at first
          exact quote (Option.some.inj first)

private theorem quotation_literalString (noSingle : rest.head? ≠ some '\'')
    (plain : ∀ char ∈ text, isPlain char = true ∧ char ≠ '\'') :
    quotation ('\'' :: (text ++ '\'' :: rest)) = literalString (text ++ '\'' :: rest) := by
  refine quotation.eq_4 _ fun more same => ?_
  cases text with
  | nil =>
      obtain rfl : rest = '\'' :: more := by simpa using same
      exact noSingle rfl
  | cons char text =>
      have quote : char = '\'' := Option.some.inj (congrArg List.head? same)
      exact (plain char List.mem_cons_self).2 quote

/-- A written string is read back, whatever follows it but a quote. -/
theorem quotation_writeString (text : List Char) (noDouble : rest.head? ≠ some '"')
    (noSingle : rest.head? ≠ some '\'') :
    quotation (writeString text ++ rest) = some (text, rest) := by
  unfold writeString
  cases form : formOf text with
  | basic =>
      simp only [List.cons_append, List.append_assoc, List.nil_append]
      rw [quotation_basicString noDouble, basicString_basicText]
  | literal =>
      have plain := plain_of_formOf_literal form
      simp only [List.cons_append, List.append_assoc, List.nil_append]
      rw [quotation_literalString noSingle plain, literalString_text plain]
  | basicLines =>
      simp only [List.append_assoc]
      change basicLines .none (dropLineEnd (leadingLine text ++ _)) = _
      rw [dropLineEnd_leadingLine fun noLine => head?_basicLinesText noLine rest]
      exact basicLines_text noDouble text (Nat.zero_le 2)
  | literalLines =>
      obtain ⟨plain, few⟩ := plain_of_formOf_literalLines form
      simp only [List.append_assoc]
      change literalLines (dropLineEnd (leadingLine text ++ _)) = _
      rw [dropLineEnd_leadingLine fun noLine => head?_literal plain noLine rest]
      exact literalLines_text noSingle plain few

/-! ## Values -/

theorem writeString_cases (text : List Char) :
    (∃ inner, writeString text = '"' :: inner) ∨ ∃ inner, writeString text = '\'' :: inner := by
  unfold writeString
  cases formOf text with
  | basic | basicLines => exact .inl ⟨_, rfl⟩
  | literal | literalLines => exact .inr ⟨_, rfl⟩

theorem value_writeString (depth : Nat) (text : List Char) (noDouble : rest.head? ≠ some '"')
    (noSingle : rest.head? ≠ some '\'') :
    value depth (writeString text ++ rest) = some (.string (String.ofList text), rest) := by
  have read := quotation_writeString text noDouble noSingle
  rcases writeString_cases text with ⟨inner, opening⟩ | ⟨inner, opening⟩
  all_goals
    rw [opening] at read ⊢
    rw [List.cons_append] at read
    cases depth with
    | zero | succ depth =>
        change (quotation (_ :: (inner ++ rest))).bind _ = _
        rw [read]
        rfl

/-- A string that has been read. -/
def Value.ofChars (text : List Char) : Value :=
  .string (String.ofList text)

private theorem skipLines_writeString (text rest : List Char) :
    skipLines false (writeString text ++ rest) = writeString text ++ rest := by
  rcases writeString_cases text with ⟨inner, opening⟩ | ⟨inner, opening⟩ <;> rw [opening] <;> rfl

private theorem writeString_append_ne (text rest more : List Char) :
    writeString text ++ rest ≠ ']' :: more := by
  intro same
  rcases writeString_cases text with ⟨inner, opening⟩ | ⟨inner, opening⟩ <;>
    rw [opening] at same <;> cases same

private theorem arrayItems_comma {before more : List Char} (depth limit : Nat)
    (opening : skipLines false before = writeString text ++ ',' :: more) :
    arrayItems (value depth) (limit + 1) before =
      (arrayItems (value depth) limit more).map fun read => (.ofChars text :: read.1, read.2) := by
  rw [arrayItems, opening]
  split
  · rename_i same
    exact absurd same (writeString_append_ne text _ _)
  · rw [value_writeString depth text (by simp) (by simp)]
    change ((arrayItems (value depth) limit more).bind fun _ => _) = _
    cases arrayItems (value depth) limit more <;> rfl

private theorem arrayItems_last {before more : List Char} (depth limit : Nat)
    (opening : skipLines false before = writeString text ++ ']' :: more) :
    arrayItems (value depth) (limit + 1) before = some ([.ofChars text], more) := by
  rw [arrayItems, opening]
  split
  · rename_i same
    exact absurd same (writeString_append_ne text _ _)
  · rw [value_writeString depth text (by simp) (by simp)]
    rfl

private theorem arrayItems_writeItems (depth : Nat) {limit : Nat} {texts : List (List Char)}
    (enough : texts.length < limit) (rest : List Char) :
    arrayItems (value depth) limit ('\n' :: (texts.flatMap writeItem ++ ']' :: rest)) =
      some (texts.map .ofChars, rest) := by
  induction texts generalizing limit with
  | nil =>
      obtain ⟨limit, rfl⟩ : ∃ smaller, limit = smaller + 1 := ⟨limit - 1, by omega⟩
      rfl
  | cons text texts ih =>
      obtain ⟨limit, rfl⟩ : ∃ smaller, limit = smaller + 1 := ⟨limit - 1, by omega⟩
      have others := ih (Nat.lt_of_succ_lt_succ enough)
      have opening : skipLines false
            ('\n' :: ((text :: texts).flatMap writeItem ++ ']' :: rest)) =
          writeString text ++ (',' :: '\n' :: (texts.flatMap writeItem ++ ']' :: rest)) := by
        rw [List.flatMap_cons, writeItem]
        simp only [List.append_assoc, List.cons_append, List.nil_append]
        exact skipLines_writeString text _
      rw [arrayItems_comma depth limit opening, others]
      rfl

private theorem length_flatMap_writeItem (texts : List (List Char)) :
    texts.length ≤ (texts.flatMap writeItem).length := by
  induction texts with
  | nil => exact Nat.le_refl 0
  | cons text texts ih =>
      simp only [List.flatMap_cons, writeItem, List.length_append, List.length_cons]
      omega

private theorem value_bracket {depth limit : Nat} {inner : List Char} {values : List Value}
    (length : inner.length = limit)
    (read : arrayItems (value depth) limit inner = some (values, rest)) :
    value (depth + 1) ('[' :: inner) = some (.array .listed values, rest) := by
  subst length
  change (arrayItems (value depth) inner.length inner).bind _ = _
  rw [read]
  rfl

/-- A written array is read back. -/
theorem value_writeStrings (depth : Nat) (texts : List (List Char)) (rest : List Char) :
    value (depth + 1) (writeStrings texts ++ rest) =
      some (.array .listed (texts.map .ofChars), rest) := by
  match texts with
  | [] => exact value_bracket rfl rfl
  | [text] =>
      have shape : writeStrings [text] ++ rest = '[' :: (writeString text ++ ']' :: rest) := by
        simp [writeStrings]
      have length : (writeString text ++ ']' :: rest).length =
          (writeString text ++ rest).length + 1 := by
        simp only [List.length_append, List.length_cons]
        omega
      rw [shape]
      exact value_bracket length (arrayItems_last depth _ (skipLines_writeString text _))
  | first :: second :: others =>
      have shape : writeStrings (first :: second :: others) ++ rest =
          '[' :: '\n' :: ((first :: second :: others).flatMap writeItem ++ ']' :: rest) := by
        simp [writeStrings]
      rw [shape]
      refine value_bracket rfl (arrayItems_writeItems depth ?_ rest)
      have items := length_flatMap_writeItem (first :: second :: others)
      simp only [List.length_append, List.length_cons] at items ⊢
      omega

end TreeCheck.Toml
