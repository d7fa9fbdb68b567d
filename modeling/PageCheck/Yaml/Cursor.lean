import PageCheck.Text.Character

/-! # Positions in a YAML text

What is left of a text, and where in it that begins. Columns decide structure in YAML, so each
step forward keeps count of them.
-/

namespace PageCheck.Yaml

def isBreak (c : Char) : Bool :=
  c = '\n' || c = '\r' || c = '\u0085' || c = '\u2028' || c = '\u2029'

/-- Whether a character may stand in a YAML text at all. -/
def isPrintable (c : Char) : Bool :=
  let n := c.toNat
  n = 0x09 || n = 0x0A || n = 0x0D || (0x20 ≤ n && n ≤ 0x7E) || n = 0x85 ||
    (0xA0 ≤ n && n ≤ 0xD7FF) || (0xE000 ≤ n && n ≤ 0xFFFD) || 0x10000 ≤ n

structure Cursor where
  rest : List Char
  /-- The number of characters before the position. -/
  index : Nat := 0
  line : Nat := 0
  column : Nat := 0

namespace Cursor

/-- The character `n` places ahead; none behind the end. -/
def peek (cursor : Cursor) (n : Nat := 0) : Option Char :=
  cursor.rest[n]?

def sees (cursor : Cursor) (c : Char) (n : Nat := 0) : Bool :=
  cursor.peek n = some c

/-- Whether a line ends `n` places ahead, or the text does. -/
def atBreak (cursor : Cursor) (n : Nat := 0) : Bool :=
  (cursor.peek n).all isBreak

/-- Whether a word ends `n` places ahead: at a blank, a line end or the end of the text. -/
def atGap (cursor : Cursor) (n : Nat := 0) : Bool :=
  (cursor.peek n).all fun c => Text.isInlineBlank c || isBreak c

/-- The position after `n` more characters of the same line. -/
def skip (cursor : Cursor) (n : Nat := 1) : Cursor :=
  { cursor with
    rest := cursor.rest.drop n, index := cursor.index + n, column := cursor.column + n }

/-- The position after the characters of the same line for which `p` holds. -/
def skipWhile (cursor : Cursor) (p : Char → Bool) : Cursor :=
  cursor.skip (cursor.rest.takeWhile p).length

def skipToBreak (cursor : Cursor) : Cursor :=
  cursor.skipWhile (!isBreak ·)

/-- Take a line end: what it counts as in a text, and the position behind it. -/
def takeBreak (cursor : Cursor) : List Char × Cursor :=
  let next (n : Nat) : Cursor :=
    { rest := cursor.rest.drop n, index := cursor.index + n, line := cursor.line + 1, column := 0 }
  match cursor.rest with
  | '\r' :: '\n' :: _ => (['\n'], next 2)
  | '\u2028' :: _ => (['\u2028'], next 1)
  | '\u2029' :: _ => (['\u2029'], next 1)
  | _ => (['\n'], next 1)

def skipBreak (cursor : Cursor) : Cursor :=
  cursor.takeBreak.2

/-- Whether three of the given characters stand alone at the beginning of a line. -/
def atMarker (cursor : Cursor) (c : Char) : Bool :=
  cursor.column = 0 && cursor.sees c && cursor.sees c 1 && cursor.sees c 2 && cursor.atGap 3

/-- Whether a document begins or ends here. -/
def atDocumentMarker (cursor : Cursor) : Bool :=
  cursor.atMarker '-' || cursor.atMarker '.'

/-- The position behind blanks and a comment, at the end of the line; none if anything else
    stands in between. -/
def skipLineEnd? (cursor : Cursor) : Option Cursor :=
  let blank := cursor.skipWhile Text.isInlineBlank
  let last := if blank.sees '#' then blank.skipToBreak else blank
  if last.atBreak then some (if last.rest.isEmpty then last else last.skipBreak) else none

end Cursor

end PageCheck.Yaml
