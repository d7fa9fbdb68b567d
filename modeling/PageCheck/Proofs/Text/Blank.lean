import Mathlib.Data.List.TakeWhile
import PageCheck.Text.Character

/-! # Trimming

What is left of a text without the blanks at its ends: a part of it with blanks on both sides, which
itself neither begins nor ends with one.
-/

namespace PageCheck.Text

/-- `part` is `text` without the blanks at its ends. -/
structure IsTrimmed (text part : String) : Prop where
  /-- Only blanks are left out, and only at the ends. -/
  within : ∃ lead tail : String, text = lead ++ part ++ tail ∧
    (∀ c ∈ lead.toList, isBlank c) ∧ ∀ c ∈ tail.toList, isBlank c
  front : ∀ c ∈ part.toList.head?, ¬ isBlank c
  back : ∀ c ∈ part.toList.getLast?, ¬ isBlank c

theorem head?_dropWhile_isBlank {cs : List Char} {c : Char}
    (first : c ∈ (cs.dropWhile isBlank).head?) : ¬ isBlank c := by
  have stopped := List.head?_dropWhile_not isBlank cs
  rw [Option.mem_def.mp first] at stopped
  simpa using stopped

/-- Behind what trimming leaves stand the blanks that it takes off at the end. -/
theorem trimChars_append (cs : List Char) :
    trimChars cs ++ ((cs.dropWhile isBlank).reverse.takeWhile isBlank).reverse =
      cs.dropWhile isBlank := by
  rw [trimChars, ← List.reverse_append, List.takeWhile_append_dropWhile, List.reverse_reverse]

theorem trimChars_eq (cs : List Char) : ∃ lead tail, cs = lead ++ trimChars cs ++ tail ∧
    (∀ c ∈ lead, isBlank c) ∧ ∀ c ∈ tail, isBlank c := by
  refine ⟨cs.takeWhile isBlank, ((cs.dropWhile isBlank).reverse.takeWhile isBlank).reverse, ?_,
    fun c member => List.mem_takeWhile_imp member,
    fun c member => List.mem_takeWhile_imp (List.mem_reverse.mp member)⟩
  rw [List.append_assoc, trimChars_append, List.takeWhile_append_dropWhile]

theorem getLast?_trimChars {cs : List Char} {c : Char} (last : c ∈ (trimChars cs).getLast?) :
    ¬ isBlank c := by
  rw [trimChars, List.getLast?_reverse] at last
  exact head?_dropWhile_isBlank last

theorem head?_trimChars {cs : List Char} {c : Char} (first : c ∈ (trimChars cs).head?) :
    ¬ isBlank c := by
  have begins : c ∈ (cs.dropWhile isBlank).head? := by
    rw [← trimChars_append, List.head?_append, Option.mem_def.mp first]
    rfl
  exact head?_dropWhile_isBlank begins

theorem isTrimmed_trim (text : String) : IsTrimmed text (trim text) := by
  obtain ⟨lead, tail, parts, blank_lead, blank_tail⟩ := trimChars_eq text.toList
  constructor
  case within =>
    refine ⟨String.ofList lead, String.ofList tail, ?_, ?_, ?_⟩
    · rw [trim, ← String.ofList_append, ← String.ofList_append, ← parts, String.ofList_toList]
    · rwa [String.toList_ofList]
    · rwa [String.toList_ofList]
  case front =>
    intro c first
    rw [trim, String.toList_ofList] at first
    exact head?_trimChars first
  case back =>
    intro c last
    rw [trim, String.toList_ofList] at last
    exact getLast?_trimChars last

theorem dropWhile_isBlank_eq_self {cs : List Char} (front : ∀ c ∈ cs.head?, ¬ isBlank c) :
    cs.dropWhile isBlank = cs := by
  cases cs with
  | nil => rfl
  | cons c rest => exact List.dropWhile_cons_of_neg (front c rfl)

/-- Nothing but the blanks around a text can be taken off it. -/
theorem IsTrimmed.trim_eq {text part : String} (trimmed : IsTrimmed text part) :
    trim text = part := by
  obtain ⟨lead, tail, rfl, blank_lead, blank_tail⟩ := trimmed.within
  have kept : trimChars (lead.toList ++ (part.toList ++ tail.toList)) = part.toList := by
    rw [trimChars, List.dropWhile_append_of_pos blank_lead]
    by_cases empty : part.toList = []
    · rw [empty, List.nil_append, List.dropWhile_eq_nil_iff.mpr blank_tail]
      rfl
    · have front : ∀ c ∈ (part.toList ++ tail.toList).head?, ¬ isBlank c := by
        rw [List.head?_append, Option.or_of_isSome (by simpa using empty)]
        exact trimmed.front
      have back : ∀ c ∈ part.toList.reverse.head?, ¬ isBlank c := by
        rw [List.head?_reverse]
        exact trimmed.back
      have blank_reversed : ∀ c ∈ tail.toList.reverse, isBlank c := by
        intro c member
        exact blank_tail c (List.mem_reverse.mp member)
      rw [dropWhile_isBlank_eq_self front, List.reverse_append,
        List.dropWhile_append_of_pos blank_reversed, dropWhile_isBlank_eq_self back,
        List.reverse_reverse]
  rw [trim, String.toList_append, String.toList_append, List.append_assoc, kept,
    String.ofList_toList]

theorem isTrimmed_iff {text part : String} : IsTrimmed text part ↔ trim text = part := by
  constructor
  · intro trimmed
    exact trimmed.trim_eq
  · rintro rfl
    exact isTrimmed_trim text

end PageCheck.Text
