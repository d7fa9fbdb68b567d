import PageCheck.Json.Basic
import PageCheck.Yaml.Cursor

/-! # Scalars

The texts of a YAML document, in their five styles. Line ends inside a text are folded: a single
one counts as a blank, and of several the first is dropped. Only the literal style keeps them.
-/

namespace PageCheck.Yaml

inductive ScalarStyle where
  | plain
  | singleQuoted
  | doubleQuoted
  | literal
  | folded
  deriving DecidableEq, Repr

/-- What stands between two words of a text. -/
structure Gap where
  /-- The blanks, if all is on one line. -/
  blanks : List Char := []
  /-- The first line end. -/
  first : List Char := []
  /-- The further line ends. -/
  further : List Char := []
  /-- Whether a line end has been passed. -/
  crossed : Bool := false

def Gap.text (gap : Gap) : List Char :=
  if !gap.crossed then gap.blanks
  else if gap.first = ['\n'] then (if gap.further.isEmpty then [' '] else gap.further)
  else gap.first ++ gap.further

/-- Take a gap. A tab that stands for indentation left of `indent` is a fault. Each round takes
    one character. -/
def takeGap? (indent : Nat) : Nat → Gap → Cursor → Option (Gap × Cursor)
  | 0, gap, cursor => some (gap, cursor)
  | rounds + 1, gap, cursor =>
    match cursor.peek with
    | none => some (gap, cursor)
    | some c =>
      if Text.isInlineBlank c then
        if gap.crossed && c = '\t' && cursor.column < indent then none
        else
          let gap := if gap.crossed then gap else { gap with blanks := gap.blanks ++ [c] }
          takeGap? indent rounds gap cursor.skip
      else if isBreak c then
        let (newLine, next) := cursor.takeBreak
        let gap :=
          if gap.crossed then { gap with further := gap.further ++ newLine }
          else { gap with blanks := [], first := newLine, crossed := true }
        takeGap? indent rounds gap next
      else some (gap, cursor)

/-- The character of an escape, and how many characters behind its backslash name it. -/
def escape? (cs : List Char) : Option (Char × Nat) :=
  let numbered (count : Nat) : Option (Char × Nat) :=
    let digits := (cs.drop 1).take count
    if digits.length = count then (Json.codePoint? digits).map fun c => (c, count + 1) else none
  match cs with
  | '0' :: _ => some ('\x00', 1)
  | 'a' :: _ => some ('\x07', 1)
  | 'b' :: _ => some ('\x08', 1)
  | 't' :: _ | '\t' :: _ => some ('\t', 1)
  | 'n' :: _ => some ('\n', 1)
  | 'v' :: _ => some ('\x0b', 1)
  | 'f' :: _ => some ('\x0c', 1)
  | 'r' :: _ => some ('\r', 1)
  | 'e' :: _ => some ('\x1b', 1)
  | ' ' :: _ => some (' ', 1)
  | '"' :: _ => some ('"', 1)
  | '/' :: _ => some ('/', 1)
  | '\\' :: _ => some ('\\', 1)
  | 'N' :: _ => some ('\u0085', 1)
  | '_' :: _ => some ('\u00a0', 1)
  | 'L' :: _ => some ('\u2028', 1)
  | 'P' :: _ => some ('\u2029', 1)
  | 'x' :: _ => numbered 2
  | 'u' :: _ => numbered 4
  | 'U' :: _ => numbered 8
  | _ => none

/-- Take a word of a quoted text: up to a gap, the closing quote, or a line end that a backslash
    cancels. The last part of the answer says whether such a line end was passed. -/
def takeQuotedWord? (quote : Char) :
    Nat → List Char → Cursor → Option (List Char × Cursor × Bool)
  | 0, word, cursor => some (word, cursor, false)
  | rounds + 1, word, cursor =>
    match cursor.peek with
    | none => some (word, cursor, false)
    | some c =>
      if Text.isInlineBlank c || isBreak c then some (word, cursor, false)
      else if quote = '\'' && c = '\'' && cursor.sees '\'' 1 then
        takeQuotedWord? quote rounds (word ++ ['\'']) (cursor.skip 2)
      else if c = quote then some (word, cursor, false)
      else if quote = '"' && c = '\\' then
        if (cursor.peek 1).any isBreak then some (word, cursor.skip.skipBreak, true)
        else
          (escape? (cursor.rest.drop 1)).bind fun (escaped, length) =>
            takeQuotedWord? quote rounds (word ++ [escaped]) (cursor.skip (length + 1))
      else takeQuotedWord? quote rounds (word ++ [c]) cursor.skip

/-- Take a quoted text from behind its opening quote. Each round takes a word and a gap. -/
def takeQuoted? (quote : Char) : Nat → List Char → Cursor → Option (List Char × Cursor)
  | 0, _, _ => none
  | rounds + 1, taken, cursor => do
    if cursor.atDocumentMarker || cursor.rest.isEmpty then none
    else
      let (word, next, crossed) ← takeQuotedWord? quote cursor.rest.length [] cursor
      if next.sees quote then return (taken ++ word, next.skip)
      else
        let (gap, last) ← takeGap? 0 next.rest.length { crossed } next
        takeQuoted? quote rounds (taken ++ word ++ gap.text) last

/-- Whether a plain text ends in front of the given characters, short of a gap. Within brackets
    the signs of flow structure end it, and a colon in front of such a sign is a fault. -/
def plainEnds? (flow : Bool) (cursor : Cursor) : Option Bool :=
  let isFlowSign (c : Char) : Bool := [',', '[', ']', '\x7b', '\x7d'].contains c
  if flow && cursor.sees ':' && (cursor.peek 1).any (fun c => c = '?' || isFlowSign c) then none
  else some (cursor.sees ':' && cursor.atGap 1 || flow && cursor.peek.any isFlowSign)

def takePlainWord? (flow : Bool) : Nat → List Char → Cursor → Option (List Char × Cursor)
  | 0, word, cursor => some (word, cursor)
  | rounds + 1, word, cursor =>
    match cursor.peek with
    | none => some (word, cursor)
    | some c =>
      if Text.isInlineBlank c || isBreak c then some (word, cursor)
      else
        match plainEnds? flow cursor with
        | none => none
        | some true => some (word, cursor)
        | some false => takePlainWord? flow rounds (word ++ [c]) cursor.skip

/-- Take a plain text whose further lines are indented by `indent` at least, unless it stands
    within brackets. The last part of the answer says whether a line end was passed behind the
    text. -/
def takePlain? (flow : Bool) (indent : Nat) :
    Nat → List Char → Gap → Cursor → Option (List Char × Cursor × Bool)
  | 0, taken, gap, cursor => some (taken, cursor, gap.crossed)
  | rounds + 1, taken, gap, cursor => do
    if cursor.atDocumentMarker || cursor.sees '#' then return (taken, cursor, gap.crossed)
    let (word, next) ← takePlainWord? flow cursor.rest.length [] cursor
    if word.isEmpty then return (taken, next, gap.crossed)
    let taken := taken ++ gap.text ++ word
    if !next.peek.any (fun c => Text.isInlineBlank c || isBreak c) then return (taken, next, false)
    let (gap, last) ← takeGap? indent next.rest.length {} next
    if !flow && last.column < indent then return (taken, last, gap.crossed)
    takePlain? flow indent rounds taken gap last

/-- What happens to the line ends behind a text in block style. -/
inductive Chomping where
  /-- All are dropped. -/
  | strip
  /-- The first is kept. -/
  | clip
  /-- All are kept. -/
  | keep
  deriving DecidableEq, Repr

def chomping? : Option Char → Option Chomping
  | some '+' => some .keep
  | some '-' => some .strip
  | _ => none

/-- Take the signs behind the indicator of a block style, in either order: the chomping, and how
    much deeper the text is indented, where that is given. -/
def takeBlockSigns? (cursor : Cursor) : Option (Chomping × Option Nat × Cursor) :=
  let depth? (cursor : Cursor) : Option (Option Nat × Cursor) :=
    match cursor.peek with
    | some c =>
      if c = '0' then none
      else if c.isDigit then some (some (c.toNat - '0'.toNat), cursor.skip)
      else some (none, cursor)
    | none => some (none, cursor)
  match chomping? cursor.peek with
  | some chomping => (depth? cursor.skip).map fun (depth, next) => (chomping, depth, next)
  | none =>
    (depth? cursor).map fun (depth, next) =>
      match depth, chomping? next.peek with
      | some _, some chomping => (chomping, depth, next.skip)
      | _, _ => (.clip, depth, next)

/-- Skip the indentation and the empty lines of a text in block style: the line ends passed, and
    the deepest column reached. An `indent` of zero is one that is not yet known. -/
def takeEmptyLines? (indent : Nat) :
    Nat → List Char → Nat → Cursor → Option (List Char × Nat × Cursor)
  | 0, breaks, deepest, cursor => some (breaks, deepest, cursor)
  | rounds + 1, breaks, deepest, cursor =>
    let room := if indent = 0 then cursor.rest.length else indent - cursor.column
    let cursor := cursor.skip ((cursor.rest.take room).takeWhile (· = ' ')).length
    let deepest := max deepest cursor.column
    if (indent = 0 || cursor.column < indent) && cursor.sees '\t' then none
    else if cursor.peek.any isBreak then
      let (newLine, next) := cursor.takeBreak
      takeEmptyLines? indent rounds (breaks ++ newLine) deepest next
    else some (breaks, deepest, cursor)

/-- The state in which the lines of a text in block style are joined. -/
structure BlockLines where
  taken : List Char := []
  /-- The line end behind the last line. -/
  pending : List Char := []
  /-- The line ends of the empty lines behind it. -/
  empties : List Char := []
  /-- Whether the last line began with a blank, which keeps the line end in front of it. -/
  blankStart : Bool := false

/-- Take the lines of a text in block style, each round one that is not empty. -/
def takeBlockLines? (isLiteral : Bool) (indent : Nat) :
    Nat → BlockLines → Cursor → Option (BlockLines × Cursor)
  | 0, lines, cursor => some (lines, cursor)
  | rounds + 1, lines, cursor =>
    if cursor.column ≠ indent ∨ cursor.rest.isEmpty then some (lines, cursor)
    else
      let startsBlank := cursor.peek.any Text.isInlineBlank
      let folds := !isLiteral && lines.pending = ['\n'] && !lines.blankStart && !startsBlank
      let joint := if folds then (if lines.empties.isEmpty then [' '] else []) else lines.pending
      let line := cursor.rest.takeWhile (!isBreak ·)
      let last := cursor.skipToBreak
      let (pending, next) := if last.rest.isEmpty then ([], last) else last.takeBreak
      (takeEmptyLines? indent (next.rest.length + 1) [] 0 next).bind fun (empties, _, following) =>
        takeBlockLines? isLiteral indent rounds
          { taken := lines.taken ++ joint ++ lines.empties ++ line
            pending, empties, blankStart := startsBlank }
          following

/-- Take a text in block style from behind its indicator. `parent` is the indentation of what it
    stands in, plus one. -/
def takeBlock? (isLiteral : Bool) (parent : Nat) (cursor : Cursor) :
    Option (List Char × Cursor) := do
  let (chomping, depth, next) ← takeBlockSigns? cursor
  let first ← next.skipLineEnd?
  let given := match depth with
    | some depth => parent - 1 + depth
    | none => 0
  let (empties, deepest, start) ← takeEmptyLines? given (first.rest.length + 1) [] 0 first
  let indent := if given = 0 then max (max deepest parent) 1 else given
  let (lines, last) ← takeBlockLines? isLiteral indent (start.rest.length + 1) { empties } start
  let tail := match chomping with
    | .strip => []
    | .clip => lines.pending
    | .keep => lines.pending ++ lines.empties
  return (lines.taken ++ tail, last)

end PageCheck.Yaml
