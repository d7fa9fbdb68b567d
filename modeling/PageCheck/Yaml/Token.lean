import PageCheck.Yaml.Scalar

/-! # Tokens

A YAML text as a list of tokens. Indentation becomes explicit: a column to the right of the
current one opens a block, and a column to its left closes blocks. A scalar may turn out to be a
key only when the colon behind it is met; then the token for the key goes in front of it.
-/

namespace PageCheck.Yaml

inductive Token where
  /-- The version that a directive asks for. -/
  | version (major minor : Nat)
  /-- A directive that gives a tag handle its meaning. -/
  | handle (name meaning : String)
  | documentStart
  | documentEnd
  | blockSequence
  | blockMapping
  | blockEnd
  | flowSequence
  | flowSequenceEnd
  | flowMapping
  | flowMappingEnd
  | blockEntry
  | flowEntry
  | key
  | value
  | alias (name : String)
  | anchor (name : String)
  /-- A tag: its handle, which is empty for a tag written out, and the rest of it. -/
  | tag (handle suffix : String)
  | scalar (style : ScalarStyle) (text : String)
  deriving DecidableEq, Repr

/-- A place where a key may have begun. -/
structure KeyStart where
  /-- Whether what begins there can be nothing but a key. -/
  required : Bool
  /-- The number of tokens in front of it. -/
  position : Nat
  index : Nat
  line : Nat
  column : Nat

/-- The state in which a text is cut into tokens. -/
structure Scanner where
  cursor : Cursor
  tokens : Array Token := #[]
  /-- The columns of the open blocks, innermost first. -/
  blocks : List Nat := []
  /-- Whether a key may begin at this point. -/
  keyAllowed : Bool := true
  /-- For each open bracket, innermost first, and for the text itself, where a key may have
      begun. -/
  keys : List (Option KeyStart) := [none]

namespace Scanner

/-- Whether a bracket is open, so that indentation does not count. -/
def inFlow (scanner : Scanner) : Bool :=
  1 < scanner.keys.length

/-- The least column of what stands inside the innermost block. -/
def innerColumn (scanner : Scanner) : Nat :=
  match scanner.blocks with
  | [] => 0
  | column :: _ => column + 1

def push (scanner : Scanner) (token : Token) : Scanner :=
  { scanner with tokens := scanner.tokens.push token }

/-- Insert a token in front of those from a position on. -/
def insert (scanner : Scanner) (position : Nat) (token : Token) : Scanner :=
  { scanner with tokens := (scanner.tokens.toList.insertIdx position token).toArray }

/-- Close the open blocks to the right of a column, or all. -/
def closeBlocks (scanner : Scanner) (column : Option Nat) : Scanner :=
  if scanner.inFlow then scanner
  else
    let isInner (block : Nat) : Bool := column.all (· < block)
    let closed := scanner.blocks.takeWhile isInner
    { scanner with
      tokens := scanner.tokens ++ (closed.map fun _ => Token.blockEnd).toArray
      blocks := scanner.blocks.dropWhile isInner }

/-- Open a block at a column, unless one is open there already. -/
def openBlock (scanner : Scanner) (column position : Nat) (token : Token) : Scanner :=
  if !scanner.inFlow && scanner.blocks.head?.all (· < column) then
    { scanner.insert position token with blocks := column :: scanner.blocks }
  else scanner

/-- Give up a key that may have begun; one that is required cannot be given up. -/
def dropKey? (scanner : Scanner) : Option Scanner :=
  match scanner.keys with
  | some start :: outer =>
    if start.required then none else some { scanner with keys := none :: outer }
  | _ => some scanner

/-- Remember that a key may begin here. -/
def startKey? (scanner : Scanner) : Option Scanner :=
  if scanner.keyAllowed then
    let cursor := scanner.cursor
    scanner.dropKey?.map fun dropped =>
      { dropped with
        keys := some {
            required := !scanner.inFlow && scanner.blocks.head? = some cursor.column
            position := scanner.tokens.size
            index := cursor.index, line := cursor.line, column := cursor.column }
          :: dropped.keys.drop 1 }
  else some scanner

/-- Give up the keys that cannot come about any more: a key stands on one line and is not too
    long. -/
def dropStaleKeys? (scanner : Scanner) : Option Scanner := do
  let cursor := scanner.cursor
  let keys ← scanner.keys.mapM fun entry =>
    match entry with
    | some start =>
      if start.line < cursor.line || start.index + 1024 < cursor.index then
        if start.required then none else some none
      else some entry
    | none => some none
  return { scanner with keys }

/-- Skip blanks, comments and line ends. Tabs are skipped where no key may begin. Behind a line
    end a key may begin. Each round skips a line. -/
def skipToToken : Nat → Scanner → Scanner
  | 0, scanner => scanner
  | rounds + 1, scanner =>
    let tabs := scanner.inFlow || !scanner.keyAllowed
    let cursor := scanner.cursor.skipWhile fun c => c = ' ' || tabs && c = '\t'
    let cursor := if cursor.sees '#' then cursor.skipToBreak else cursor
    if cursor.peek.any isBreak then
      skipToToken rounds
        { scanner with
          cursor := cursor.skipBreak, keyAllowed := scanner.keyAllowed || !scanner.inFlow }
    else { scanner with cursor }

/-- Add a token that takes `length` characters. -/
def take (scanner : Scanner) (length : Nat) (token : Token) (keyAllowed : Bool) : Scanner :=
  { scanner.push token with cursor := scanner.cursor.skip length, keyAllowed }

/-- The characters of a tag, written with percent signs where they would not be allowed. -/
def isTagChar (full : Bool) (c : Char) : Bool :=
  Text.isNameChar c ||
    [';', '/', '?', ':', '@', '&', '=', '+', '$', '.', '!', '~', '*', '\'', '(', ')'].contains c ||
    full && [',', '[', ']'].contains c

/-- Take a byte that is written as a percent sign and two digits. -/
def takeEscapedByte? : List Char → Option (Nat × List Char)
  | '%' :: high :: low :: rest => do
    return (16 * (← Json.hexDigit? high) + (← Json.hexDigit? low), rest)
  | _ => none

/-- Take further bytes of a character. -/
def takeFurtherBytes? : Nat → Nat → List Char → Option (Nat × List Char)
  | 0, number, rest => some (number, rest)
  | count + 1, number, cs => do
    let (byte, rest) ← takeEscapedByte? cs
    if byte / 64 = 2 then takeFurtherBytes? count (64 * number + byte % 64) rest else none

/-- Take a character whose bytes are written with percent signs. -/
def takeEscapedChar? (cs : List Char) : Option (Char × List Char) := do
  let (byte, rest) ← takeEscapedByte? cs
  let (number, rest) ←
    if byte < 0x80 then some (byte, rest)
    else if byte / 32 = 6 then takeFurtherBytes? 1 (byte % 32) rest
    else if byte / 16 = 14 then takeFurtherBytes? 2 (byte % 16) rest
    else if byte / 8 = 30 then takeFurtherBytes? 3 (byte % 8) rest
    else none
  return (Char.ofNat number, rest)

/-- Take the characters of a tag. Each round takes one character. -/
def takeTagChars? (full : Bool) : Nat → List Char → Cursor → Option (List Char × Cursor)
  | 0, taken, cursor => some (taken, cursor)
  | rounds + 1, taken, cursor =>
    if cursor.sees '%' then
      (takeEscapedChar? cursor.rest).bind fun (c, rest) =>
        takeTagChars? full rounds (taken ++ [c]) (cursor.skip (cursor.rest.length - rest.length))
    else
      match cursor.peek with
      | some c =>
        if isTagChar full c then takeTagChars? full rounds (taken ++ [c]) cursor.skip
        else some (taken, cursor)
      | none => some (taken, cursor)

/-- Take a tag's text that may not be empty. -/
def takeTagText? (full : Bool) (cursor : Cursor) : Option (String × Cursor) := do
  let (taken, next) ← takeTagChars? full cursor.rest.length [] cursor
  if taken.isEmpty then none else return (String.ofList taken, next)

/-- Take a name with exclamation marks around it, or without the second one. -/
def takeHandle? (cursor : Cursor) : Option (String × Cursor) :=
  if cursor.sees '!' then
    let next := cursor.skip.skipWhile Text.isNameChar
    let last := if next.sees '!' then next.skip else next
    some (String.ofList (cursor.rest.take (last.index - cursor.index)), last)
  else none

/-- Take a tag: its handle, and what follows it. -/
def takeTag? (cursor : Cursor) : Option ((String × String) × Cursor) :=
  if cursor.sees '<' 1 then do
    let (text, next) ← takeTagText? true (cursor.skip 2)
    if next.sees '>' then return (("", text), next.skip) else none
  else do
    let (handle, next) ← takeHandle? cursor
    if 1 < handle.length && handle.endsWith "!" then
      let (suffix, last) ← takeTagText? false next
      return ((handle, suffix), last)
    else
      let (taken, last) ← takeTagChars? false next.rest.length [] next
      let suffix := String.ofList (handle.toList.drop 1 ++ taken)
      return (if suffix.isEmpty then ("", "!") else ("!", suffix), last)

def takeVersionNumber? (cursor : Cursor) : Option (Nat × Cursor) :=
  let digits := cursor.rest.takeWhile Char.isDigit
  if digits.isEmpty || 9 < digits.length then none
  else some (digits.foldl (fun n c => 10 * n + (c.toNat - '0'.toNat)) 0, cursor.skip digits.length)

/-- Take what follows the name of a directive for the version. -/
def takeVersion? (cursor : Cursor) : Option (Token × Cursor) := do
  let (major, next) ← takeVersionNumber? cursor
  if next.sees '.' then
    let (minor, last) ← takeVersionNumber? next.skip
    return (.version major minor, last)
  else none

/-- Take what follows the name of a directive for a handle. -/
def takeHandleMeaning? (cursor : Cursor) : Option (Token × Cursor) := do
  let (name, next) ← takeHandle? cursor
  if (name = "!" || 1 < name.length && name.endsWith "!") && next.peek.any Text.isInlineBlank then
    let (meaning, last) ← takeTagText? true (next.skipWhile Text.isInlineBlank)
    if last.atGap then return (.handle name meaning, last) else none
  else none

def takeDirective? (cursor : Cursor) : Option (Token × Cursor) := do
  let name := String.ofList (cursor.rest.takeWhile Text.isNameChar)
  let next := cursor.skip name.length
  let value := next.skipWhile Text.isInlineBlank
  let (token, last) ←
    if !next.atGap then none
    else if name = "YAML" then takeVersion? value
    else if name = "TAG" then takeHandleMeaning? value
    else none
  return (token, ← last.skipLineEnd?)

def takeName? (cursor : Cursor) : Option (String × Cursor) :=
  let name := String.ofList (cursor.rest.takeWhile Text.isNameChar)
  let next := cursor.skip name.length
  let ends := next.atGap || next.peek.any ['?', ':', ',', ']', '\x7d', '%', '@', '`'].contains
  if name.isEmpty || !ends then none else some (name, next)

/-- Whether a plain text may begin here. -/
def startsPlain (scanner : Scanner) : Bool :=
  let cursor := scanner.cursor
  let signs :=
    ['-', '?', ':', ',', '[', ']', '\x7b', '\x7d', '#', '&', '*', '!', '|', '>', '\'', '"', '%',
      '@', '`']
  match cursor.peek with
  | none => false
  | some c =>
    !(Text.isInlineBlank c || isBreak c || signs.contains c) ||
      c = '-' && !(cursor.peek 1).any Text.isInlineBlank ||
      !scanner.inFlow && (c = '?' || c = ':') && !cursor.atGap 1

/-- Take the colon of a value: behind what may be a key, or on its own. -/
def takeColon? (scanner : Scanner) : Option Scanner :=
  match scanner.keys with
  | some start :: outer =>
    let keyed := (scanner.insert start.position .key).openBlock start.column start.position
      .blockMapping
    some ({ keyed with keys := none :: outer }.take 1 .value false)
  | _ =>
    if scanner.inFlow then some (scanner.take 1 .value false)
    else if scanner.keyAllowed then
      let opened := scanner.openBlock scanner.cursor.column scanner.tokens.size .blockMapping
      some (opened.take 1 .value true)
    else none

/-- Take a sign that begins an entry or a key of a block. -/
def takeBlockSign? (scanner : Scanner) (block sign : Token) (keyAllowed : Bool) :
    Option Scanner :=
  if !scanner.inFlow && !scanner.keyAllowed then none
  else
    let opened := scanner.openBlock scanner.cursor.column scanner.tokens.size block
    opened.dropKey?.map (·.take 1 sign keyAllowed)

def takeClosing? (scanner : Scanner) (token : Token) : Option Scanner :=
  scanner.dropKey?.map fun dropped =>
    let keys := if dropped.inFlow then dropped.keys.drop 1 else dropped.keys
    { dropped with keys }.take 1 token false

def takeOpening? (scanner : Scanner) (token : Token) : Option Scanner :=
  scanner.startKey?.map fun started =>
    { started with keys := none :: started.keys }.take 1 token true

/-- Add a token that has been taken up to a position. -/
def taken (scanner : Scanner) (keyAllowed : Bool) (found : Option (Token × Cursor)) :
    Option Scanner :=
  found.map fun (token, cursor) => { scanner.push token with cursor, keyAllowed }

def takeQuotedScalar? (scanner : Scanner) (quote : Char) (style : ScalarStyle) : Option Scanner :=
  scanner.startKey?.bind fun started =>
    let cursor := scanner.cursor.skip
    started.taken false <|
      (takeQuoted? quote (cursor.rest.length + 1) [] cursor).map fun (text, next) =>
        (.scalar style (String.ofList text), next)

def takeBlockScalar? (scanner : Scanner) (style : ScalarStyle) : Option Scanner :=
  scanner.dropKey?.bind fun dropped =>
    dropped.taken true <|
      (takeBlock? (style = .literal) scanner.innerColumn scanner.cursor.skip).map
        fun (text, next) => (.scalar style (String.ofList text), next)

/-- Take a plain text. Behind a text that a line end follows, a key may begin. -/
def takePlainScalar? (scanner : Scanner) : Option Scanner := do
  let started ← scanner.startKey?
  let cursor := scanner.cursor
  let (text, next, crossed) ←
    takePlain? scanner.inFlow scanner.innerColumn (cursor.rest.length + 1) [] {} cursor
  started.taken crossed (some (.scalar .plain (String.ofList text), next))

/-- Take the next token; no token is left when nothing of the text is. -/
def next? (scanner : Scanner) : Option Scanner := do
  let scanner ← (skipToToken (scanner.cursor.rest.length + 1) scanner).dropStaleKeys?
  let scanner := scanner.closeBlocks (some scanner.cursor.column)
  let cursor := scanner.cursor
  match cursor.peek with
  | none => (scanner.closeBlocks none).dropKey?
  | some c =>
    if cursor.column = 0 && c = '%' then
      (scanner.closeBlocks none).dropKey?.bind (·.taken false (takeDirective? cursor.skip))
    else if cursor.atMarker '-' then
      (scanner.closeBlocks none).dropKey?.map (·.take 3 .documentStart false)
    else if cursor.atMarker '.' then
      (scanner.closeBlocks none).dropKey?.map (·.take 3 .documentEnd false)
    else if c = '[' then scanner.takeOpening? .flowSequence
    else if c = '\x7b' then scanner.takeOpening? .flowMapping
    else if c = ']' then scanner.takeClosing? .flowSequenceEnd
    else if c = '\x7d' then scanner.takeClosing? .flowMappingEnd
    else if c = ',' then scanner.dropKey?.map (·.take 1 .flowEntry true)
    else if c = '-' && cursor.atGap 1 then scanner.takeBlockSign? .blockSequence .blockEntry true
    else if c = '?' && (scanner.inFlow || cursor.atGap 1) then
      scanner.takeBlockSign? .blockMapping .key (!scanner.inFlow)
    else if c = ':' && (scanner.inFlow || cursor.atGap 1) then scanner.takeColon?
    else if c = '*' then
      scanner.startKey?.bind (·.taken false ((takeName? cursor.skip).map fun (name, next) =>
        (.alias name, next)))
    else if c = '&' then
      scanner.startKey?.bind (·.taken false ((takeName? cursor.skip).map fun (name, next) =>
        (.anchor name, next)))
    else if c = '!' then
      scanner.startKey?.bind (·.taken false ((takeTag? cursor).bind fun ((handle, suffix), next) =>
        if next.atGap || scanner.inFlow && next.sees ',' then some (.tag handle suffix, next)
        else none))
    else if c = '|' && !scanner.inFlow then scanner.takeBlockScalar? .literal
    else if c = '>' && !scanner.inFlow then scanner.takeBlockScalar? .folded
    else if c = '\'' then scanner.takeQuotedScalar? c .singleQuoted
    else if c = '"' then scanner.takeQuotedScalar? c .doubleQuoted
    else if scanner.startsPlain then scanner.takePlainScalar?
    else none

def all? : Nat → Scanner → Option Scanner
  | 0, _ => none
  | rounds + 1, scanner =>
    scanner.next?.bind fun next => if next.cursor.rest.isEmpty then next.next? else all? rounds next

end Scanner

/-- The tokens of a text; none if it cannot be cut into tokens. Byte order marks in front are
    skipped. -/
def tokens? (text : String) : Option (List Token) :=
  if text.toList.all isPrintable then
    let marks := (text.toList.take 2).takeWhile (· = '\uFEFF')
    let cs := text.toList.drop marks.length
    (Scanner.all? (cs.length + 1) { cursor := { rest := cs } }).map (·.tokens.toList)
  else none

end PageCheck.Yaml
