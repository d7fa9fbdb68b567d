/-! # Lines of a text

A line is a range of bytes. Line feed, carriage return, and the pair of a carriage return and a
line feed each end a line; the terminator belongs to no line, and a terminator at the very end
opens no further line. Scanning bytes is right for UTF-8, in which the two terminator bytes never
occur inside a longer character.
-/

namespace PageCheck.Text

/-- The bytes from offset `start` up to, not including, offset `stop`. -/
structure ByteRange where
  start : Nat
  stop : Nat
  deriving DecidableEq, Repr

/-- The lines of `bytes`, which begin at offset `pos`, when the current line began at `start`. -/
def lineRangesFrom (start pos : Nat) : List UInt8 → List ByteRange
  | [] => if start < pos then [⟨start, pos⟩] else []
  | 10 :: rest => ⟨start, pos⟩ :: lineRangesFrom (pos + 1) (pos + 1) rest
  | 13 :: 10 :: rest => ⟨start, pos⟩ :: lineRangesFrom (pos + 2) (pos + 2) rest
  | 13 :: rest => ⟨start, pos⟩ :: lineRangesFrom (pos + 1) (pos + 1) rest
  | _ :: rest => lineRangesFrom start (pos + 1) rest

def lineRanges (text : String) : List ByteRange :=
  lineRangesFrom 0 0 text.toUTF8.toList

/-- The characters after the first `n` bytes; none if a character straddles that point or the
    text ends before it. -/
def dropBytes? : Nat → List Char → Option (List Char)
  | 0, cs => some cs
  | _ + 1, [] => none
  | n + 1, c :: cs => if c.utf8Size ≤ n + 1 then dropBytes? (n + 1 - c.utf8Size) cs else none

/-- The characters that make up the first `n` bytes; none under the same conditions. -/
def takeBytes? : Nat → List Char → Option (List Char)
  | 0, _ => some []
  | _ + 1, [] => none
  | n + 1, c :: cs =>
    if c.utf8Size ≤ n + 1 then (takeBytes? (n + 1 - c.utf8Size) cs).map (c :: ·) else none

/-- The part of a text in a byte range; none if an end of the range is no character boundary of
    the text, or the range runs backwards. -/
def slice? (text : String) (range : ByteRange) : Option String :=
  if range.start ≤ range.stop then
    ((dropBytes? range.start text.toList).bind (takeBytes? (range.stop - range.start))).map
      String.ofList
  else
    none

end PageCheck.Text
