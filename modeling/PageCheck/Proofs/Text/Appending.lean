import PageCheck.Proofs.Document.Lines

/-! # Lines of texts put together

A text that ends with a line feed keeps its lines whatever is put behind it. What is put before a
text without a line end of its own only makes the first line longer.
-/

namespace PageCheck.Text

namespace LineEnds

theorem unbroken_append_iff {ends : LineEnds α} {first second : List α} :
    ends.Unbroken (first ++ second) ↔ ends.Unbroken first ∧ ends.Unbroken second := by
  simp only [Unbroken, List.forall_mem_append]

theorem Terminator.append {ending rest : List Char} (terminator : ofChars.Terminator ending rest)
    (ended : (ending ++ rest).getLast? = some '\n') (back : List Char) :
    ofChars.Terminator ending (rest ++ back) := by
  cases terminator with
  | feed => exact .feed _
  | pair => exact .pair _
  | ret alone =>
      cases rest with
      | nil => exact absurd ended (by decide)
      | cons next rest => exact .ret alone

/-- A cut of a text that ends with a line feed and one of any other text make up a cut of the two
    together. -/
theorem Cut.append {front back : List Char} {pieces others : List (Piece Char)}
    (first : ofChars.Cut front pieces) (ended : front.getLast? = some '\n')
    (second : ofChars.Cut back others) : ofChars.Cut (front ++ back) (pieces ++ others) := by
  induction first with
  | nil => cases ended
  | last filled unbroken =>
      exact absurd rfl (unbroken '\n' (List.mem_of_getLast? ended)).1
  | @cons line ending rest pieces unbroken terminator cut ih =>
      have behind : (ending ++ rest).getLast? = some '\n' := by
        rwa [List.getLast?_append, List.getLast?_eq_some_getLast (by simp [terminator.ne_nil]),
          Option.some_or, ← List.getLast?_eq_some_getLast] at ended
      rw [List.append_assoc, List.append_assoc, List.cons_append]
      refine .cons unbroken (terminator.append behind back) ?_
      by_cases done : rest = []
      · obtain rfl := cut.eq_nil_iff.mpr done
        rw [done]
        exact second
      · rw [List.getLast?_append, List.getLast?_eq_some_getLast done, Option.some_or,
          ← List.getLast?_eq_some_getLast] at behind
        exact ih behind

theorem Cut.prepend {front text : List Char} {piece : Piece Char} {pieces : List (Piece Char)}
    (unbroken : ofChars.Unbroken front) (cut : ofChars.Cut text (piece :: pieces)) :
    ofChars.Cut (front ++ text) (⟨front ++ piece.line, piece.ending⟩ :: pieces) := by
  cases cut with
  | last filled whole => exact .last (by simp [filled]) (unbroken_append_iff.mpr ⟨unbroken, whole⟩)
  | cons whole terminator cut =>
      rw [← List.append_assoc]
      exact .cons (unbroken_append_iff.mpr ⟨unbroken, whole⟩) terminator cut

end LineEnds

theorem splitLines_eq {text : String} {pieces : List (Piece Char)}
    (cut : LineEnds.ofChars.Cut text.toList pieces) :
    splitLines text = pieces.map fun piece => String.ofList piece.line := by
  rw [splitLines, cut.lines_eq, List.map_map]
  rfl

theorem splitLines_append {front : String} (ended : front.toList.getLast? = some '\n')
    (back : String) : splitLines (front ++ back) = splitLines front ++ splitLines back := by
  obtain ⟨pieces, cut⟩ := LineEnds.ofChars.exists_cut front.toList
  obtain ⟨others, rest⟩ := LineEnds.ofChars.exists_cut back.toList
  have whole := cut.append ended rest
  rw [← String.toList_append] at whole
  rw [splitLines_eq whole, splitLines_eq cut, splitLines_eq rest, List.map_append]

def OnOneLine (text : String) : Prop :=
  LineEnds.ofChars.Unbroken text.toList

instance (text : String) : Decidable (OnOneLine text) :=
  List.decidableBAll (fun symbol => symbol ≠ '\n' ∧ symbol ≠ '\r') text.toList

theorem onOneLine_append_iff {first second : String} :
    OnOneLine (first ++ second) ↔ OnOneLine first ∧ OnOneLine second := by
  rw [OnOneLine, String.toList_append]
  exact LineEnds.unbroken_append_iff

theorem splitLines_line {line : String} (whole : OnOneLine line) :
    splitLines (line ++ "\n") = [line] := by
  have cut : LineEnds.ofChars.Cut (line ++ "\n").toList [⟨line.toList, ['\n']⟩] := by
    rw [String.toList_append]
    exact .cons whole (.feed []) .nil
  rw [splitLines_eq cut, List.map_singleton, String.ofList_toList]

theorem length_splitLines_append {front : String} (whole : OnOneLine front) {text : String}
    (filled : text ≠ "") : (splitLines (front ++ text)).length = (splitLines text).length := by
  obtain ⟨pieces, cut⟩ := LineEnds.ofChars.exists_cut text.toList
  cases pieces with
  | nil => exact absurd (String.toList_eq_nil_iff.mp (cut.eq_nil_iff.mp rfl)) filled
  | cons piece pieces =>
      have longer := cut.prepend whole
      rw [← String.toList_append] at longer
      rw [splitLines_eq cut, splitLines_eq longer, List.length_map, List.length_map,
        List.length_cons, List.length_cons]

/-- The number of lines that a text takes up in print beyond the first. -/
def furtherLines (text : String) : Nat :=
  (splitLines (text ++ "\n")).length - 1

theorem length_splitLines_ended (text : String) :
    (splitLines (text ++ "\n")).length = furtherLines text + 1 := by
  obtain ⟨pieces, cut⟩ := LineEnds.ofChars.exists_cut (text ++ "\n").toList
  have positive : 0 < pieces.length := by
    rw [List.length_pos_iff, ne_eq, cut.eq_nil_iff]
    simp
  rw [furtherLines, splitLines_eq cut, List.length_map]
  omega

theorem furtherLines_append {front : String} (whole : OnOneLine front) (text : String) :
    furtherLines (front ++ text) = furtherLines text := by
  rw [furtherLines, furtherLines, String.append_assoc, length_splitLines_append whole (by simp)]

theorem OnOneLine.furtherLines_eq {text : String} (whole : OnOneLine text) :
    furtherLines text = 0 := by
  rw [furtherLines, splitLines_line whole, List.length_singleton]

end PageCheck.Text
