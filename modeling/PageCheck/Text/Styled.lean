/-! # Styled text

Terminal styling by select-graphic-rendition sequences: an escape character, a bracket, digits and
the letter `m`. A style writes one sequence before its text and one behind it; `strip` deletes
every such sequence.
-/

namespace PageCheck.Text

inductive Colour where
  | red
  | green
  | yellow
  | blue
  | cyan
  | brightBlack
  deriving DecidableEq, Repr

def Colour.code : Colour → String
  | .red => "31"
  | .green => "32"
  | .yellow => "33"
  | .blue => "34"
  | .cyan => "36"
  | .brightBlack => "90"

/-- The sequence with the given digits. -/
def sequence (digits : String) : String :=
  "\x1b[" ++ digits ++ "m"

/-- A text in a colour; the sequence behind it restores the default foreground. -/
def Colour.paint (colour : Colour) (text : String) : String :=
  sequence colour.code ++ text ++ sequence "39"

/-- A text in bold; the sequence behind it resets all styling. -/
def bold (text : String) : String :=
  sequence "1" ++ text ++ sequence "0"

/-- Delete every sequence from a list of characters. `held` is what has been read of a possible
    sequence, in reverse; it is given back when the sequence does not come about. -/
def stripFrom (held : List Char) : List Char → List Char
  | [] => held.reverse
  | c :: rest =>
    if c = '\x1b' then held.reverse ++ stripFrom ['\x1b'] rest
    else match held with
      | [] => c :: stripFrom [] rest
      | ['\x1b'] =>
        if c = '[' then stripFrom ['[', '\x1b'] rest else '\x1b' :: c :: stripFrom [] rest
      | last :: _ =>
        if c.isDigit then stripFrom (c :: held) rest
        else if c = 'm' ∧ last.isDigit then stripFrom [] rest
        else held.reverse ++ c :: stripFrom [] rest

def strip (text : String) : String :=
  String.ofList (stripFrom [] text.toList)

example : strip (bold (Colour.red.paint "3m") ++ "\x1b[m") = "3m\x1b[m" := by decide +kernel

end PageCheck.Text
