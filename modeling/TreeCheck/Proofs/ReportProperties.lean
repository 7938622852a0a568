import TreeCheck.Proofs.CheckProperties
import TreeCheck.Proofs.Growth

/-!
# A report determines its records

The records of a report have no fixed width and follow each other without a count. Still a report
can only be read in one way: a number ends where the next text begins, since that text does not
begin with a digit, and a record ends with a text of its own.
-/

set_option autoImplicit false

namespace TreeCheck

namespace Metrics

private theorem digits_injective {left right : Nat}
    (same : Nat.toDigits 10 left = Nat.toDigits 10 right) :
    left = right := by
  have read := congrArg (Nat.ofDigitChars 10 · 0) same
  rwa [Nat.ofDigitChars_ten_toDigits, Nat.ofDigitChars_ten_toDigits] at read

/-- A number and what stands behind it are told apart by a text between the two that does not begin
with a digit. -/
theorem number_append_inj {left right : Nat} {separator : String} {rest others : List Char}
    (ends : separator.toList.head?.any (!·.isDigit) = true)
    (same : (toString left).toList ++ (separator.toList ++ rest) =
      (toString right).toList ++ (separator.toList ++ others)) :
    left = right ∧ rest = others := by
  rw [Nat.toString_eq_repr, Nat.toString_eq_repr, Nat.toList_repr, Nat.toList_repr] at same
  have own (number : Nat) : ∀ char ∈ Nat.toDigits 10 number, char.isDigit = true :=
    fun _ => Nat.isDigit_of_mem_toDigits (by decide) (by decide)
  have foreign (behind : List Char) :
      (separator.toList ++ behind).takeWhile Char.isDigit = [] := by
    cases text : separator.toList with
    | nil => simp [text] at ends
    | cons char chars =>
        have stops : char.isDigit = false := by simpa [text] using ends
        simp [stops]
  have digits := congrArg (List.takeWhile Char.isDigit) same
  rw [List.takeWhile_append_of_pos (own left), List.takeWhile_append_of_pos (own right),
    foreign rest, foreign others, List.append_nil, List.append_nil] at digits
  rw [digits] at same
  exact ⟨digits_injective digits, List.append_cancel_left (List.append_cancel_left same)⟩

private theorem text_append_inj {left right : Metrics} {rest others : List Char}
    (same : left.text.toList ++ rest = right.text.toList ++ others) :
    left = right ∧ rest = others := by
  unfold text at same
  simp only [String.toList_append, List.append_assoc] at same
  obtain ⟨vars, afterVars⟩ := number_append_inj (by decide) (List.append_cancel_left same)
  obtain ⟨whiles, afterWhiles⟩ := number_append_inj (by decide) afterVars
  obtain ⟨ifs, afterIfs⟩ := number_append_inj (by decide) afterWhiles
  obtain ⟨enumValues, afterValues⟩ := number_append_inj (by decide) afterIfs
  obtain ⟨operators, behind⟩ := number_append_inj (by decide) afterValues
  exact ⟨Metrics.ext vars whiles ifs enumValues operators, behind⟩

private theorem toList_report_cons (first : Metrics) (rest : List Metrics) :
    (report (first :: rest)).toList = first.text.toList ++ '\n' :: (report rest).toList := by
  simp [report]

private theorem report_injective : Function.Injective report := by
  intro left right same
  have chars := congrArg String.toList same
  induction left generalizing right with
  | nil =>
      cases right with
      | nil => rfl
      | cons record rest =>
          rw [toList_report_cons] at chars
          simp [report] at chars
  | cons record rest ih =>
      cases right with
      | nil =>
          rw [toList_report_cons] at chars
          simp [report] at chars
      | cons other others =>
          rw [toList_report_cons, toList_report_cons] at chars
          obtain ⟨rfl, behind⟩ := text_append_inj chars
          have tails := List.tail_eq_of_cons_eq behind
          rw [ih (String.toList_inj.mp tails) tails]

end Metrics

namespace Machine

open Project

/-- The text that is handed out for records, where it ends up: printed, or in the file. -/
inductive HandsOut (machine : Machine) (records : List Metrics) : Option String → String → Prop
  | printed {text : String} {after : Machine} :
      (emit records none : Simulated (Except Failure String)) machine = (.ok text, after) →
      HandsOut machine records none text
  | written {file printed text : String} {after : Machine} :
      (emit records (some file) : Simulated (Except Failure String)) machine =
        (.ok printed, after) →
      after.readText file = .ok text → HandsOut machine records (some file) text

variable {machine other after : Machine} {records others : List Metrics}
  {destination place : Option String} {text content : String}

theorem readText_of_emit {file printed : String}
    (ran : (emit records (some file) : Simulated (Except Failure String)) machine =
      (.ok printed, after)) :
    after.readText file = .ok (Metrics.report records) := by
  obtain ⟨-, middle, -, written⟩ := writes_of_emit ran
  exact readText_of_writeText written

theorem HandsOut.eq_report (handed : HandsOut machine records destination text) :
    text = Metrics.report records := by
  cases handed with
  | printed ran =>
      cases ran
      rfl
  | written ran read =>
      rw [readText_of_emit ran] at read
      cases read
      rfl

/-- Whenever records are handed out, their text is found. -/
theorem handsOut_of_emit {printed : String}
    (ran : (emit records destination : Simulated (Except Failure String)) machine =
      (.ok printed, after)) :
    HandsOut machine records destination (Metrics.report records) := by
  cases destination with
  | none => exact .printed rfl
  | some file => exact .written ran (readText_of_emit ran)

/-- Two texts that are handed out, wherever each of them is printed or written, are the same just
when the records are: as many, in the same order, with the same five counters in each. -/
theorem handed_out_eq_iff (first : HandsOut machine records destination text)
    (second : HandsOut other others place content) : text = content ↔ records = others := by
  rw [first.eq_report, second.eq_report]
  exact Metrics.report_injective.eq_iff

def loopRecords : List Metrics :=
  [{ vars := 1, whiles := 1 }, {}]

theorem handed_out_eq_iff_in_workshop :
    ∃ text content, HandsOut workshop loopRecords (some "/out/records/all.txt") text ∧
      HandsOut {} [{ vars := 1 }, { whiles := 1 }] none content ∧ text ≠ content := by
  have succeeded : ((emit loopRecords (some "/out/records/all.txt") :
      Simulated (Except Failure String)) workshop).1.toBool = true := by decide +kernel
  rcases ran : (emit loopRecords (some "/out/records/all.txt") :
    Simulated (Except Failure String)) workshop with ⟨outcome, after⟩
  rw [ran] at succeeded
  cases outcome with
  | error failure => cases succeeded
  | ok printed =>
      have first := handsOut_of_emit ran
      have second : HandsOut {} [{ vars := 1 }, { whiles := 1 }] none _ := .printed rfl
      have differ : loopRecords ≠ [{ vars := 1 }, { whiles := 1 }] := by decide
      exact ⟨_, _, first, second, mt (handed_out_eq_iff first second).mp differ⟩

end Machine

end TreeCheck
