import PageCheck.Proofs.Text.Pieces

/-! # The line index

The byte ranges that a text is divided into, one for each line. They are the ranges of the pieces
that the text is cut into, and with the gaps between them they cover each byte exactly once.
-/

namespace PageCheck.Text

/-- The ranges of the lines of a sequence of pieces that begins at offset `start`. -/
def rangesOf (start : Nat) : List (Piece UInt8) → List ByteRange
  | [] => []
  | piece :: rest =>
    ⟨start, start + piece.line.length⟩ ::
      rangesOf (start + piece.line.length + piece.ending.length) rest

theorem length_rangesOf (start : Nat) (pieces : List (Piece UInt8)) :
    (rangesOf start pieces).length = pieces.length := by
  induction pieces generalizing start with
  | nil => rfl
  | cons piece rest ih => rw [rangesOf, List.length_cons, List.length_cons, ih]

theorem rangesOf_append (start : Nat) (before after : List (Piece UInt8)) :
    rangesOf start (before ++ after) =
      rangesOf start before ++ rangesOf (start + (Piece.join before).length) after := by
  induction before generalizing start with
  | nil => rfl
  | cons piece rest ih =>
      rw [List.cons_append, rangesOf, rangesOf, ih, Piece.join_cons, List.length_append,
        List.length_append, List.cons_append, Nat.add_assoc, Nat.add_assoc, Nat.add_assoc]

theorem lineRangesFrom_unbroken {line : List UInt8} (unbroken : LineEnds.ofBytes.Unbroken line)
    (start pos : Nat) (rest : List UInt8) :
    lineRangesFrom start pos (line ++ rest) = lineRangesFrom start (pos + line.length) rest := by
  induction line generalizing pos with
  | nil => rfl
  | cons byte line ih =>
      obtain ⟨no_feed, no_ret⟩ := unbroken byte List.mem_cons_self
      have tail : LineEnds.ofBytes.Unbroken line :=
        fun other member => unbroken other (List.mem_cons_of_mem byte member)
      rw [List.cons_append, lineRangesFrom, ih tail, List.length_cons, Nat.add_assoc,
        Nat.add_comm 1]
      · exact no_feed
      · exact fun _ is_ret _ => no_ret is_ret
      · exact no_ret

theorem lineRangesFrom_terminator {ending rest : List UInt8}
    (terminator : LineEnds.ofBytes.Terminator ending rest) (start pos : Nat) :
    lineRangesFrom start pos (ending ++ rest) =
      ⟨start, pos⟩ :: lineRangesFrom (pos + ending.length) (pos + ending.length) rest := by
  cases terminator with
  | feed => rfl
  | pair => rfl
  | ret alone =>
      -- A feed behind the return would have made the two a pair.
      have single : lineRangesFrom start pos (13 :: rest) =
          ⟨start, pos⟩ :: lineRangesFrom (pos + 1) (pos + 1) rest := by
        rw [lineRangesFrom]
        rintro rest rfl
        exact alone rfl
      exact single

/-- The scan for line ranges finds the pieces of a cut one after another. -/
theorem lineRangesFrom_cut {bytes : List UInt8} {pieces : List (Piece UInt8)}
    (cut : LineEnds.ofBytes.Cut bytes pieces) (start : Nat) :
    lineRangesFrom start start bytes = rangesOf start pieces := by
  induction cut generalizing start with
  | nil => rw [lineRangesFrom, if_neg (Nat.lt_irrefl start), rangesOf]
  | @last line filled unbroken =>
      have some_byte : start < start + line.length :=
        Nat.lt_add_of_pos_right (List.length_pos_iff.mpr filled)
      rw [← List.append_nil line, lineRangesFrom_unbroken unbroken, lineRangesFrom,
        if_pos some_byte]
      simp [rangesOf]
  | cons unbroken terminator cut ih =>
      rw [lineRangesFrom_unbroken unbroken, lineRangesFrom_terminator terminator, ih, rangesOf]

/-- The line ranges of a text are those of the pieces that its characters are cut into. -/
theorem lineRanges_cut {text : String} {pieces : List (Piece Char)}
    (cut : LineEnds.ofChars.Cut text.toList pieces) :
    lineRanges text = rangesOf 0 (pieces.map Piece.encode) := by
  rw [lineRanges, toList_toUTF8, lineRangesFrom_cut cut.encode]

theorem rangesOf_split (start : Nat) (before : List (Piece UInt8)) (piece : Piece UInt8)
    (after : List (Piece UInt8)) :
    rangesOf start (before ++ piece :: after) = rangesOf start before ++
      ⟨start + (Piece.join before).length,
        start + (Piece.join before).length + piece.line.length⟩ ::
      rangesOf (start + (Piece.join before).length + piece.line.length + piece.ending.length)
        after := by
  rw [rangesOf_append, rangesOf]

/-- The range in a row is that of the line of a piece, behind all pieces before it. -/
theorem exists_piece_of_getElem? {start row : Nat} {pieces : List (Piece UInt8)}
    {range : ByteRange} (found : (rangesOf start pieces)[row]? = some range) :
    ∃ before piece after, pieces = before ++ piece :: after ∧ before.length = row ∧
      range = ⟨start + (Piece.join before).length,
        start + (Piece.join before).length + piece.line.length⟩ := by
  have inside : row < pieces.length := by
    rw [← length_rangesOf start pieces]
    exact (List.getElem?_eq_some_iff.mp found).1
  have split : pieces = pieces.take row ++ pieces[row] :: pieces.drop (row + 1) := by
    rw [List.getElem_cons_drop, List.take_append_drop]
  have front : (pieces.take row).length = row := List.length_take_of_le (Nat.le_of_lt inside)
  refine ⟨_, _, _, split, front, ?_⟩
  have reached : (rangesOf start (pieces.take row)).length = row :=
    (length_rangesOf ..).trans front
  rw [split, rangesOf_split, List.getElem?_append_right (Nat.le_of_eq reached), reached,
    Nat.sub_self] at found
  exact (Option.some.inj found).symm

def ByteRange.contains (range : ByteRange) (offset : Nat) : Bool :=
  range.start ≤ offset && offset < range.stop

theorem ByteRange.contains_iff {range : ByteRange} {offset : Nat} :
    range.contains offset = true ↔ range.start ≤ offset ∧ offset < range.stop := by
  rw [contains, Bool.and_eq_true, decide_eq_true_eq, decide_eq_true_eq]

/-- The gaps behind the lines of a text of the given size: each reaches to the next line, or to the
    end of the text. -/
def gaps (size : Nat) : List ByteRange → List ByteRange
  | [] => []
  | [line] => [⟨line.stop, size⟩]
  | line :: next :: rest => ⟨line.stop, next.start⟩ :: gaps size (next :: rest)

theorem gaps_rangesOf (line : ByteRange) (start : Nat) (pieces : List (Piece UInt8)) :
    gaps (start + (Piece.join pieces).length) (line :: rangesOf start pieces) =
      ⟨line.stop, start⟩ :: gaps (start + (Piece.join pieces).length) (rangesOf start pieces) := by
  cases pieces <;> rfl

/-- Lines and gaps together cover each byte once and reach no further. -/
theorem countP_contains (start offset : Nat) (pieces : List (Piece UInt8)) :
    (rangesOf start pieces ++
        gaps (start + (Piece.join pieces).length) (rangesOf start pieces)).countP
      (·.contains offset) =
        if start ≤ offset ∧ offset < start + (Piece.join pieces).length then 1 else 0 := by
  induction pieces generalizing start with
  | nil => rw [if_neg (by simp)]; rfl
  | cons piece rest ih =>
      have size : start + (Piece.join (piece :: rest)).length =
          start + piece.line.length + piece.ending.length + (Piece.join rest).length := by
        rw [Piece.join_cons, List.length_append, List.length_append]
        omega
      have later := ih (start + piece.line.length + piece.ending.length)
      rw [List.countP_append] at later
      rw [size, rangesOf, gaps_rangesOf, List.countP_append, List.countP_cons, List.countP_cons,
        Nat.add_add_add_comm, later]
      simp only [ByteRange.contains_iff]
      grind

/-- `lines` cuts `bytes` at its line terminators, and nowhere else. -/
structure IsLineIndex (bytes : List UInt8) (lines : List ByteRange) : Prop where
  /-- There are no lines just where there are no bytes. -/
  nil_iff : lines = [] ↔ bytes = []
  first : ∀ line ∈ lines.head?, line.start = 0
  bounds : ∀ line ∈ lines, line.start ≤ line.stop ∧ line.stop ≤ bytes.length
  unbroken : ∀ line ∈ lines, LineEnds.ofBytes.Unbroken (bytes.extract line.start line.stop)
  /-- A line and the next are a single terminator apart. -/
  between : ∀ row line next, lines[row]? = some line → lines[row + 1]? = some next →
    LineEnds.ofBytes.Terminator (bytes.extract line.stop next.start) (bytes.drop next.start)
  /-- The last line reaches to the end of the text or to the terminator there. It is empty only
      before a terminator. -/
  last : ∀ line ∈ lines.getLast?, LineEnds.ofBytes.Terminator (bytes.drop line.stop) [] ∨
    bytes.drop line.stop = [] ∧ line.start < line.stop
  /-- Each byte belongs to one line, or to the one terminator in a gap. -/
  covered : ∀ offset < bytes.length,
    (lines ++ gaps bytes.length lines).countP (·.contains offset) = 1

theorem extract_append (front part rest : List UInt8) :
    (front ++ (part ++ rest)).extract front.length (front.length + part.length) = part := by
  rw [List.extract_eq_take_drop, List.drop_left, Nat.add_sub_cancel_left, List.take_left]

section

variable {bytes : List UInt8} {pieces : List (Piece UInt8)}
  (cut : LineEnds.ofBytes.Cut bytes pieces)
include cut

/-- The text around the line in a row: what stands before it, its ending, and what follows. -/
theorem exists_around {row : Nat} {line : ByteRange}
    (found : (rangesOf 0 pieces)[row]? = some line) :
    ∃ before piece after, pieces = before ++ piece :: after ∧ before.length = row ∧
      line = ⟨(Piece.join before).length, (Piece.join before).length + piece.line.length⟩ ∧
      bytes = Piece.join before ++ (piece.line ++ (piece.ending ++ Piece.join after)) := by
  obtain ⟨before, piece, after, split, length, range⟩ := exists_piece_of_getElem? found
  rw [Nat.zero_add] at range
  refine ⟨before, piece, after, split, length, range, ?_⟩
  rw [← cut.join_eq, split, Piece.join_append, Piece.join_cons]

theorem terminator_between {row : Nat} {line next : ByteRange}
    (found : (rangesOf 0 pieces)[row]? = some line)
    (follows : (rangesOf 0 pieces)[row + 1]? = some next) :
    LineEnds.ofBytes.Terminator (bytes.extract line.stop next.start) (bytes.drop next.start) := by
  obtain ⟨before, piece, after, split, length, rfl, text⟩ := exists_around cut found
  obtain ⟨front, second, rest, split_next, length_next, rfl, text_next⟩ :=
    exists_around cut follows
  obtain ⟨rfl, rfl⟩ : before ++ [piece] = front ∧ after = second :: rest := by
    apply List.append_inj
    · rw [← List.append_cons, ← split, split_next]
    · rw [List.length_append, length, length_next, List.length_singleton]
  have gap : bytes.extract ((Piece.join before).length + piece.line.length)
      (Piece.join (before ++ [piece])).length = piece.ending := by
    rw [text, ← List.append_assoc]
    simpa [Nat.add_assoc] using extract_append (Piece.join before ++ piece.line) piece.ending _
  have behind : bytes.drop (Piece.join (before ++ [piece])).length =
      Piece.join (second :: rest) := by
    rw [text_next, List.drop_left, Piece.join_cons]
  rw [gap, behind]
  exact (cut.ending split).resolve_right (by simp)

theorem terminator_last {line : ByteRange} (final : (rangesOf 0 pieces).getLast? = some line) :
    LineEnds.ofBytes.Terminator (bytes.drop line.stop) [] ∨
      bytes.drop line.stop = [] ∧ line.start < line.stop := by
  rw [List.getLast?_eq_getElem?, length_rangesOf] at final
  obtain ⟨before, piece, after, split, length, rfl, text⟩ := exists_around cut final
  obtain rfl : after = [] := by
    rw [split, List.length_append, List.length_cons] at length
    exact List.eq_nil_of_length_eq_zero (by omega)
  have behind : bytes.drop ((Piece.join before).length + piece.line.length) = piece.ending := by
    rw [text, ← List.append_assoc, ← List.length_append, List.drop_left, Piece.join_nil,
      List.append_nil]
  rw [behind]
  rcases cut.ending split with terminator | ⟨-, unended, filled⟩
  · exact Or.inl terminator
  · exact Or.inr ⟨unended, Nat.lt_add_of_pos_right (List.length_pos_iff.mpr filled)⟩

theorem isLineIndex_rangesOf : IsLineIndex bytes (rangesOf 0 pieces) where
  nil_iff := by
    rw [← cut.eq_nil_iff, ← List.length_eq_zero_iff, length_rangesOf, List.length_eq_zero_iff]
  first := by
    cases pieces <;> simp [rangesOf]
  bounds := by
    intro line member
    obtain ⟨row, found⟩ := List.getElem?_of_mem member
    obtain ⟨before, piece, after, -, -, rfl, rfl⟩ := exists_around cut found
    simp only [List.length_append]
    omega
  unbroken := by
    intro line member
    obtain ⟨row, found⟩ := List.getElem?_of_mem member
    obtain ⟨before, piece, after, split, -, rfl, rfl⟩ := exists_around cut found
    rw [extract_append]
    exact cut.unbroken_line (split ▸ List.mem_append_right _ List.mem_cons_self)
  between _ _ _ found follows := terminator_between cut found follows
  last _ final := terminator_last cut final
  covered := by
    intro offset inside
    have once := countP_contains 0 offset pieces
    rwa [cut.join_eq, Nat.zero_add, if_pos ⟨Nat.zero_le offset, inside⟩] at once

end

/-- The line ranges of a text are the index of its lines. -/
theorem isLineIndex_lineRanges (text : String) :
    IsLineIndex text.toUTF8.toList (lineRanges text) := by
  obtain ⟨pieces, cut⟩ := LineEnds.ofChars.exists_cut text.toList
  rw [lineRanges_cut cut, toList_toUTF8]
  exact isLineIndex_rangesOf cut.encode

example : lineRanges "é\r\r\n\nb" = [⟨0, 2⟩, ⟨3, 3⟩, ⟨5, 5⟩, ⟨6, 7⟩] := by decide +kernel

end PageCheck.Text
