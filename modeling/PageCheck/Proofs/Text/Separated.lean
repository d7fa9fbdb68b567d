/-! # Separated pieces

The pieces of a text between the occurrences of one character. None of them holds the character, and
joined with it they are the text again; no other pieces are and do.
-/

namespace PageCheck.Text

/-- The pieces of a text between the occurrences of a character. -/
def separate (separator : Char) (text : String) : List String :=
  (text.toList.splitOn separator).map String.ofList

variable {separator : Char} {text piece : String} {pieces : List String}

theorem not_mem_of_mem_splitOn {cs inner : List Char} (member : inner ∈ cs.splitOn separator) :
    separator ∉ inner := by
  induction cs generalizing inner with
  | nil =>
      rw [List.splitOn_nil, List.mem_singleton] at member
      simp [member]
  | cons c rest ih =>
      rw [List.splitOn_cons_eq_if_modifyHead] at member
      split at member
      · rcases List.mem_cons.mp member with rfl | later
        · simp
        · exact ih later
      · next other =>
          cases inners : rest.splitOn separator with
          | nil => exact absurd inners (List.splitOn_ne_nil _ _)
          | cons first others =>
              rw [inners] at member ih
              rcases List.mem_cons.mp member with rfl | later
              · have free := ih List.mem_cons_self
                simp only [List.mem_cons, not_or]
                exact ⟨fun same => other (by simp [← same]), free⟩
              · exact ih (List.mem_cons_of_mem _ later)

theorem separate_ne_nil (separator : Char) (text : String) : separate separator text ≠ [] := by
  simp [separate, List.splitOn_ne_nil]

theorem not_mem_of_mem_separate (member : piece ∈ separate separator text) :
    separator ∉ piece.toList := by
  obtain ⟨inner, own, rfl⟩ := List.mem_map.mp member
  rw [String.toList_ofList]
  exact not_mem_of_mem_splitOn own

theorem separate_of_not_mem (absent : separator ∉ text.toList) :
    separate separator text = [text] := by
  rw [separate, List.splitOn_eq_singleton absent, List.map_singleton, String.ofList_toList]

theorem separate_append (separator : Char) (front back : String) :
    separate separator (front ++ String.singleton separator ++ back) =
      separate separator front ++ separate separator back := by
  have parts : (front ++ String.singleton separator ++ back).toList =
      front.toList ++ separator :: back.toList := by simp
  rw [separate, parts, List.splitOn_append_cons_self, List.map_append, ← separate, ← separate]

theorem intercalate_separate (separator : Char) (text : String) :
    String.intercalate (String.singleton separator) (separate separator text) = text := by
  apply String.toList_inj.mp
  have inners : (separate separator text).map String.toList = text.toList.splitOn separator := by
    simp [separate, Function.comp_def]
  rw [String.toList_intercalate, inners, String.toList_singleton]
  exact List.intercalate_splitOn separator

theorem separate_intercalate (filled : pieces ≠ [])
    (uncut : ∀ piece ∈ pieces, separator ∉ piece.toList) :
    separate separator (String.intercalate (String.singleton separator) pieces) = pieces := by
  have inners : ([separator].intercalate (pieces.map String.toList)).splitOn separator =
      pieces.map String.toList := by
    apply List.splitOn_intercalate
    · intro inner member
      obtain ⟨piece, own, rfl⟩ := List.mem_map.mp member
      exact uncut piece own
    · simpa using filled
  rw [separate, String.toList_intercalate, String.toList_singleton, inners, List.map_map]
  simp [Function.comp_def]

end PageCheck.Text
