import Mathlib.Data.List.DropRight
import PageCheck.Report.Basic

/-! # Reading summary lines

A path may hold anything, also what looks like a summary, so that cutting a summary line at its
first separator can go wrong. Its end is of one form: a noun, the digits before it, and a separator
before those. A reader that goes backwards takes off the count of warnings and then that of errors,
and what is left is the path.
-/

namespace PageCheck

/-- The form of a noun behind a count. -/
inductive NounForm where
  | singular
  | plural
  deriving DecidableEq, Repr

namespace NounForm

variable {noun : String} {form : NounForm} {front text : List Char}

def spell (noun : String) : NounForm → String
  | singular => noun
  | plural => noun ++ "s"

def ofCount (count : Nat) : NounForm :=
  if count = 1 then singular else plural

theorem eq_ofCount_iff {count : Nat} : form = ofCount count ↔ (form = singular ↔ count = 1) := by
  unfold ofCount
  cases form <;> simp

/-- What stands before a noun in the given form, with a blank between them. -/
def before? (noun : String) (text : List Char) (form : NounForm) : Option (List Char) :=
  (" " ++ form.spell noun).toList.isSuffixOf? text

/-- The form of the noun at the end of a text, and what stands before it. -/
def takeLast? (noun : String) (text : List Char) : Option (NounForm × List Char) :=
  ((before? noun text singular).map (singular, ·)).or ((before? noun text plural).map (plural, ·))

theorem before?_eq_some_iff :
    before? noun text form = some front ↔ text = front ++ (" " ++ form.spell noun).toList := by
  rw [before?, List.isSuffixOf?_eq_some_iff_append_eq, eq_comm]

/-- No text ends with both forms of a noun. The blank before the singular would have to be a letter
    of the plural, which has no more blanks than the singular has. -/
theorem singular_ne_plural {other : List Char} :
    front ++ (" " ++ singular.spell noun).toList ≠ other ++ (" " ++ plural.spell noun).toList := by
  intro same
  have shifted : front ++ ' ' :: noun.toList = (other ++ [' ']) ++ (noun.toList ++ ['s']) := by
    simpa [spell] using same
  have ends : ' ' :: noun.toList = noun.toList ++ ['s'] :=
    List.append_inj_right' shifted (by simp)
  have blanks := congrArg (List.count ' ') ends
  simp at blanks

theorem takeLast?_eq_some_iff :
    takeLast? noun text = some (form, front) ↔
      text = front ++ (" " ++ form.spell noun).toList := by
  rw [← before?_eq_some_iff]
  cases form with
  | singular => simp [takeLast?]
  | plural =>
      have not_singular (found : before? noun text plural = some front) :
          before? noun text singular = none := by
        rw [Option.eq_none_iff_forall_ne_some]
        intro other also_found
        rw [before?_eq_some_iff] at found also_found
        exact singular_ne_plural (also_found.symm.trans found)
      simpa [takeLast?] using not_singular

theorem takeLast?_append :
    takeLast? noun (front ++ (" " ++ form.spell noun).toList) = some (form, front) :=
  takeLast?_eq_some_iff.mpr rfl

end NounForm

/-- The number that digits stand for, if it is written with just these. -/
def Text.numeral? (digits : List Char) : Option Nat :=
  if Nat.toDigits 10 (Nat.ofDigitChars 10 digits 0) = digits then
    some (Nat.ofDigitChars 10 digits 0)
  else
    none

theorem Text.numeral?_eq_some_iff {digits : List Char} {value : Nat} :
    numeral? digits = some value ↔ digits = Nat.toDigits 10 value := by
  unfold numeral?
  constructor
  · intro read
    split at read
    · next written =>
        rw [← Option.some.inj read, written]
    · cases read
  · rintro rfl
    rw [Nat.ofDigitChars_ten_toDigits, if_pos rfl]

section Runs

variable {p : Char → Bool} {front run : List Char} (all : ∀ c ∈ run, p c)
  (stop : ∀ c ∈ front.getLast?, ¬ p c)
include all stop

theorem Text.rdropWhile_append : (front ++ run).rdropWhile p = front := by
  have front_stays : front.rdropWhile p = front := by
    rw [List.rdropWhile_eq_self_iff]
    intro filled
    exact stop _ (List.getLast?_eq_some_getLast filled)
  rw [List.rdropWhile, List.reverse_append, List.dropWhile_append_of_pos (by simpa using all)]
  exact front_stays

theorem Text.rtakeWhile_append : (front ++ run).rtakeWhile p = run := by
  have parts : (front ++ run).rdropWhile p ++ (front ++ run).rtakeWhile p = front ++ run :=
    List.rdropWhile_append_rtakeWhile
  rw [rdropWhile_append all stop] at parts
  exact List.append_cancel_left parts

end Runs

/-- A count and its noun, as they are written. -/
structure Counted where
  count : Nat
  form : NounForm
  deriving DecidableEq, Repr

namespace Counted

def spell (noun : String) (counted : Counted) : String :=
  toString counted.count ++ (" " ++ counted.form.spell noun)

def ofCount (count : Nat) : Counted :=
  ⟨count, .ofCount count⟩

theorem spell_ofCount (count : Nat) (noun : String) :
    (ofCount count).spell noun = countOf count noun := by
  unfold spell ofCount countOf NounForm.ofCount
  split <;> simp [NounForm.spell, String.append_assoc]

variable {noun : String} {counted : Counted} {front text : List Char}

theorem toList_spell :
    (counted.spell noun).toList =
      Nat.toDigits 10 counted.count ++ (" " ++ counted.form.spell noun).toList := by
  rw [spell, String.toList_append, Nat.toString_eq_ofList_toDigits, String.toList_ofList]

/-- The count at the end of a text with its noun, and what stands before it and a separator. -/
def takeLast? (separator noun : String) (text : List Char) : Option (Counted × List Char) := do
  let (form, front) ← NounForm.takeLast? noun text
  let count ← Text.numeral? (front.rtakeWhile Char.isDigit)
  let front ← separator.toList.isSuffixOf? (front.rdropWhile Char.isDigit)
  return (⟨count, form⟩, front)

theorem eq_append_of_takeLast? {separator : String}
    (taken : takeLast? separator noun text = some (counted, front)) :
    text = front ++ (separator ++ counted.spell noun).toList := by
  simp only [takeLast?, Option.bind_eq_bind, Option.bind_eq_some_iff, Prod.exists,
    NounForm.takeLast?_eq_some_iff, Text.numeral?_eq_some_iff,
    List.isSuffixOf?_eq_some_iff_append_eq] at taken
  obtain ⟨form, rest, nouned, count, number, other, separated, result⟩ := taken
  cases result
  calc
    text = rest ++ (" " ++ form.spell noun).toList := nouned
    _ = rest.rdropWhile Char.isDigit ++ rest.rtakeWhile Char.isDigit ++
        (" " ++ form.spell noun).toList := by rw [List.rdropWhile_append_rtakeWhile]
    _ = front ++ separator.toList ++ Nat.toDigits 10 count ++
        (" " ++ form.spell noun).toList := by rw [number, separated]
    _ = front ++ (separator ++ spell noun ⟨count, form⟩).toList := by
      simp only [String.toList_append, toList_spell, List.append_assoc]

/-- The blank at the end of the separator keeps the digits apart from those that the text before
    may end with. -/
theorem takeLast?_append {separator : String} (blank : separator.toList.getLast? = some ' ') :
    takeLast? separator noun (front ++ (separator ++ counted.spell noun).toList) =
      some (counted, front) := by
  have digits : ∀ c ∈ Nat.toDigits 10 counted.count, c.isDigit :=
    fun _ member => Nat.isDigit_of_mem_toDigits (by decide) (by decide) member
  have stop : ∀ c ∈ (front ++ separator.toList).getLast?, ¬ c.isDigit := by
    rw [List.getLast?_append, blank, Option.some_or]
    rintro c ⟨rfl⟩
    decide
  have dropped := Text.rdropWhile_append digits stop
  have taken := Text.rtakeWhile_append digits stop
  have number := Text.numeral?_eq_some_iff.mpr taken
  have separated : separator.toList.isSuffixOf? (front ++ separator.toList) = some front :=
    List.isSuffixOf?_eq_some_iff_append_eq.mpr rfl
  rw [String.toList_append, toList_spell, ← List.append_assoc, ← List.append_assoc]
  simp only [takeLast?, Option.bind_eq_bind, NounForm.takeLast?_append, Option.bind_some, number,
    dropped, separated]
  rfl

theorem takeLast?_eq_some_iff {separator : String}
    (blank : separator.toList.getLast? = some ' ') :
    takeLast? separator noun text = some (counted, front) ↔
      text = front ++ (separator ++ counted.spell noun).toList := by
  constructor
  · exact eq_append_of_takeLast?
  · rintro rfl
    exact takeLast?_append blank

end Counted

structure SummaryParts where
  path : String
  errors : Counted
  warnings : Counted
  deriving DecidableEq, Repr

namespace SummaryParts

def line (parts : SummaryParts) : String :=
  parts.path ++ (" - " ++ parts.errors.spell "error") ++ (", " ++ parts.warnings.spell "warning")

/-- Read a line from its end. -/
def ofLine? (line : String) : Option SummaryParts := do
  let (warnings, front) ← Counted.takeLast? ", " "warning" line.toList
  let (errors, path) ← Counted.takeLast? " - " "error" front
  return ⟨String.ofList path, errors, warnings⟩

theorem ofLine?_eq_some_iff {line : String} {parts : SummaryParts} :
    ofLine? line = some parts ↔ line = parts.line := by
  have comma : ", ".toList.getLast? = some ' ' := by decide
  have dash : " - ".toList.getLast? = some ' ' := by decide
  simp only [ofLine?, Option.bind_eq_bind, Option.bind_eq_some_iff, Prod.exists,
    Counted.takeLast?_eq_some_iff comma, Counted.takeLast?_eq_some_iff dash]
  constructor
  · rintro ⟨warnings, front, last, errors, path, first, result⟩
    cases result
    apply String.toList_inj.mp
    rw [last, first]
    simp only [SummaryParts.line, String.toList_append, String.toList_ofList]
  · rintro rfl
    refine ⟨parts.warnings, (parts.path ++ (" - " ++ parts.errors.spell "error")).toList,
      String.toList_append, parts.errors, parts.path.toList, String.toList_append, ?_⟩
    rw [String.ofList_toList]
    rfl

/-- The parts are those of the summary of a path with the two counts, each noun standing in the
    singular for one only. -/
structure Says (parts : SummaryParts) (path : String) (errors warnings : Nat) : Prop where
  same_path : parts.path = path
  error_count : parts.errors.count = errors
  one_error : parts.errors.form = .singular ↔ errors = 1
  warning_count : parts.warnings.count = warnings
  one_warning : parts.warnings.form = .singular ↔ warnings = 1

variable {path : String} {errors warnings : Nat}

theorem says_iff {parts : SummaryParts} :
    parts.Says path errors warnings ↔ parts = ⟨path, .ofCount errors, .ofCount warnings⟩ := by
  constructor
  · rintro ⟨rfl, rfl, one_error, rfl, one_warning⟩
    rw [← NounForm.eq_ofCount_iff] at one_error one_warning
    simp only [Counted.ofCount, ← one_error, ← one_warning]
  · rintro rfl
    exact ⟨rfl, rfl, NounForm.eq_ofCount_iff.mp rfl, rfl, NounForm.eq_ofCount_iff.mp rfl⟩

theorem summaryLine_eq :
    summaryLine path errors warnings =
      line ⟨path, .ofCount errors, .ofCount warnings⟩ := by
  simp only [summaryLine, line, Counted.spell_ofCount, String.append_assoc]

theorem ofLine?_summaryLine :
    ofLine? (summaryLine path errors warnings) =
      some ⟨path, .ofCount errors, .ofCount warnings⟩ :=
  ofLine?_eq_some_iff.mpr summaryLine_eq

/-- The summary line of a path and two counts is the one line from which they are read. Only its end
    is looked at: whatever is put before it goes to the path. So no two summaries share a line. -/
theorem summaryLine_unambiguous (path : String) (errors warnings : Nat) :
    (∀ line, line = summaryLine path errors warnings ↔
      ∃ parts, ofLine? line = some parts ∧ parts.Says path errors warnings) ∧
    (∀ front, ofLine? (front ++ summaryLine path errors warnings) =
      (ofLine? (summaryLine path errors warnings)).map
        fun parts => { parts with path := front ++ parts.path }) ∧
    ∀ other_path other_errors other_warnings,
      summaryLine path errors warnings = summaryLine other_path other_errors other_warnings ↔
        path = other_path ∧ errors = other_errors ∧ warnings = other_warnings := by
  refine ⟨?reading, ?lengthened, ?injective⟩
  case reading =>
    intro line
    simp only [says_iff, exists_eq_right, ofLine?_eq_some_iff, summaryLine_eq]
  case lengthened =>
    intro front
    have longer : front ++ summaryLine path errors warnings =
        summaryLine (front ++ path) errors warnings := by
      simp only [summaryLine, String.append_assoc]
    rw [longer, ofLine?_summaryLine, ofLine?_summaryLine]
    rfl
  case injective =>
    intro other_path other_errors other_warnings
    constructor
    · intro same
      have read := congrArg ofLine? same
      rw [ofLine?_summaryLine, ofLine?_summaryLine] at read
      cases read
      exact ⟨rfl, rfl, rfl⟩
    · rintro ⟨rfl, rfl, rfl⟩
      rfl

example : ofLine? (summaryLine "a - 1 error, 2 warnings" 0 1) =
    some ⟨"a - 1 error, 2 warnings", ⟨0, .plural⟩, ⟨1, .singular⟩⟩ := by
  decide +kernel

end SummaryParts

end PageCheck
