/-! # Characters

The blanks and how text is trimmed by them, and two narrower classes that the readers of both
notations of settings share. The blanks are the characters with the Unicode property White_Space:
grammar scopes, report levels and previews are all trimmed by this one rule.
-/

namespace PageCheck.Text

/-- The code points with the property White_Space, as inclusive ranges in ascending order. -/
def blankRanges : List (Nat × Nat) :=
  [(0x09, 0x0D), (0x20, 0x20), (0x85, 0x85), (0xA0, 0xA0), (0x1680, 0x1680), (0x2000, 0x200A),
    (0x2028, 0x2029), (0x202F, 0x202F), (0x205F, 0x205F), (0x3000, 0x3000)]

def isBlank (c : Char) : Bool :=
  blankRanges.any fun (low, high) => low ≤ c.toNat && c.toNat ≤ high

/-- Remove the blanks at both ends of a list of characters. -/
def trimChars (cs : List Char) : List Char :=
  ((cs.dropWhile isBlank).reverse.dropWhile isBlank).reverse

def trim (s : String) : String :=
  String.ofList (trimChars s.toList)

example : blankRanges.foldl (fun n (low, high) => n + (high - low + 1)) 0 = 25 := rfl

/-- Whether a character is a blank within a line of a settings file. -/
def isInlineBlank (c : Char) : Bool :=
  c = ' ' || c = '\t'

/-- Whether a character may stand in a bare name: a key, an anchor or the handle of a tag. -/
def isNameChar (c : Char) : Bool :=
  c.isAlphanum || c = '_' || c = '-'

end PageCheck.Text
