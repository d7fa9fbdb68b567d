import PageCheck.Document
import PageCheck.Proofs.Text.LineIndex
import PageCheck.Proofs.Text.Splitting

/-! # Looking up lines

The line in a row is sliced from the text by bytes. Every range of the index begins and ends between
two characters, so that the slice always exists, and it is the line that splitting the text by
characters gives.
-/

namespace PageCheck

namespace Text

/-- `line` is what a range of bytes covers, from between two characters to between two. -/
def StandsAt (text : String) (range : ByteRange) (line : String) : Prop :=
  ∃ before after : String, text = before ++ line ++ after ∧
    range = ⟨before.utf8ByteSize, (before ++ line).utf8ByteSize⟩

theorem length_lineRanges (text : String) :
    (lineRanges text).length = (splitLines text).length := by
  obtain ⟨pieces, cut⟩ := LineEnds.ofChars.exists_cut text.toList
  rw [lineRanges_cut cut, length_rangesOf, splitLines, cut.lines_eq, List.length_map,
    List.length_map, List.length_map]

theorem unbroken_of_mem_splitLines {text line : String} (member : line ∈ splitLines text) :
    LineEnds.ofChars.Unbroken line.toList := by
  obtain ⟨pieces, cut⟩ := LineEnds.ofChars.exists_cut text.toList
  rw [splitLines, cut.lines_eq, List.map_map] at member
  obtain ⟨piece, found, rfl⟩ := List.mem_map.mp member
  rw [Function.comp, String.toList_ofList]
  exact cut.unbroken_line found

/-- The range in a row covers the line of that row, and slicing the text there gives it. -/
theorem exists_line_of_getElem? {text : String} {row : Nat} {range : ByteRange}
    (found : (lineRanges text)[row]? = some range) :
    ∃ line, (splitLines text)[row]? = some line ∧ StandsAt text range line ∧
      slice? text range = some line := by
  obtain ⟨pieces, cut⟩ := LineEnds.ofChars.exists_cut text.toList
  rw [lineRanges_cut cut] at found
  obtain ⟨bytes_before, bytes, bytes_after, encoded, length, rfl⟩ := exists_piece_of_getElem? found
  obtain ⟨before, others, rfl, rfl, tail⟩ := List.map_eq_append_iff.mp encoded
  obtain ⟨piece, after, rfl, rfl, rfl⟩ := List.map_eq_cons_iff.mp tail
  have parts : text = String.ofList (Piece.join before ++
      (piece.line ++ (piece.ending ++ Piece.join after))) := by
    rw [← Piece.join_cons, ← Piece.join_append, cut.join_eq, String.ofList_toList]
  have range : (⟨0 + (Piece.join (before.map Piece.encode)).length,
      0 + (Piece.join (before.map Piece.encode)).length + piece.encode.line.length⟩ : ByteRange) =
        ⟨(encode (Piece.join before)).length,
          (encode (Piece.join before)).length + (encode piece.line).length⟩ := by
    rw [Nat.zero_add, Piece.join_encode]
    rfl
  rw [range]
  refine ⟨String.ofList piece.line, ?_, ⟨String.ofList (Piece.join before),
    String.ofList (piece.ending ++ Piece.join after), ?_, ?_⟩, ?_⟩
  · rw [splitLines, cut.lines_eq, ← length]
    simp
  · rw [parts, ← String.ofList_append, ← String.ofList_append, List.append_assoc]
  · rw [String.utf8ByteSize_append, length_encode, length_encode]
  · rw [parts, slice?_append]

end Text

namespace Document

variable (doc : Document)

theorem length_lines : doc.lines.length = (Text.splitLines doc.text).length :=
  Text.length_lineRanges doc.text

theorem lineText_eq (row : Nat) : doc.lineText row = (Text.splitLines doc.text)[row]? := by
  cases found : doc.lines[row]? with
  | none =>
      have beyond : (Text.splitLines doc.text).length ≤ row := by
        rw [← doc.length_lines]
        exact List.getElem?_eq_none_iff.mp found
      rw [lineText, found, Option.bind_none, List.getElem?_eq_none beyond]
  | some range =>
      obtain ⟨line, split, -, slice⟩ := Text.exists_line_of_getElem? found
      rw [lineText, found, Option.bind_some, slice, split]

theorem exists_parts_of_lineText {row : Nat} {line : String}
    (found : doc.lineText row = some line) :
    ∃ before after : String, doc.text = before ++ line ++ after := by
  obtain ⟨range, row_range, sliced⟩ := Option.bind_eq_some_iff.mp found
  obtain ⟨other, -, ⟨before, after, parts, -⟩, slice⟩ := Text.exists_line_of_getElem? row_range
  rw [slice] at sliced
  exact ⟨before, after, Option.some.inj sliced ▸ parts⟩

/-- Looking up a line never cuts a character nor reaches beyond the text: each range of the index
    covers a line, and slicing gives it. What is found are the lines of the text split by
    characters, in order, and none beyond the last. -/
theorem lineText_agrees (row : Nat) :
    (∀ range ∈ doc.lines[row]?, ∃ line,
      Text.StandsAt doc.text range line ∧ Text.slice? doc.text range = some line) ∧
    doc.lineText row = (Text.splitLines doc.text)[row]? := by
  refine ⟨?_, doc.lineText_eq row⟩
  intro range found
  obtain ⟨line, -, stands, slice⟩ := Text.exists_line_of_getElem? found
  exact ⟨line, stands, slice⟩

end Document

end PageCheck
