import PageCheck.Target
import PageCheck.Text.Line

/-! # Documents

What a run needs of a document: its text, the path under which it is shown, and the grammar scope
that decides which service judges it.
-/

namespace PageCheck

/-- A document under validation. -/
structure Document where
  /-- The path under which the document is shown. -/
  path : String
  text : String
  grammar : String
  deriving DecidableEq, Repr

namespace Document

def lines (doc : Document) : List Text.ByteRange :=
  Text.lineRanges doc.text

/-- The text of a line, counted from zero; none beyond the last line. -/
def lineText (doc : Document) (row : Nat) : Option String :=
  doc.lines[row]?.bind (Text.slice? doc.text)

def target (doc : Document) : Target :=
  Target.ofGrammar doc.grammar

end Document

end PageCheck
