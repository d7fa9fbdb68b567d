import PageCheck.Toml.Quoted
import PageCheck.Toml.Scalar

/-! # Reading TOML

A document is a list of lines: headers that open tables, and entries that go into the table that
was opened last. Any fault makes the whole document unreadable.
-/

namespace PageCheck.Toml

/-- Skip a comment, which ends in front of a line end. -/
def skipComment? : List Char → Option (List Char)
  | '#' :: rest =>
    let more := rest.dropWhile isPrintable
    if more.isEmpty || (takeNewLine? more).isSome then some more else none
  | cs => some cs

/-- Skip blanks, and a comment behind them. -/
def skipBlanks? (cs : List Char) : Option (List Char) :=
  skipComment? (cs.dropWhile Text.isInlineBlank)

/-- Skip blanks, comments and line ends. Each round skips a line. -/
def skipLines? : Nat → List Char → Option (List Char)
  | 0, cs => some cs
  | rounds + 1, cs =>
    (skipBlanks? cs).bind fun rest =>
      match takeNewLine? rest with
      | some (_, more) => skipLines? rounds more
      | none => some rest

def skipAll? (cs : List Char) : Option (List Char) :=
  skipLines? (cs.length + 1) cs

def takeKey? (cs : List Char) : Option (String × List Char) :=
  match cs with
  | '"' :: rest =>
    (takeBasic? rest.length rest).map fun (taken, more) => (String.ofList taken, more)
  | '\'' :: rest => (takeLiteral? rest).map fun (taken, more) => (String.ofList taken, more)
  | _ =>
    let key := cs.takeWhile Text.isNameChar
    if key.isEmpty then none else some (String.ofList key, cs.dropWhile Text.isNameChar)

/-- Take keys with dots between them. Each round takes one key. -/
def takeKeys? : Nat → List Char → Option (List String × List Char)
  | 0, _ => none
  | rounds + 1, cs => do
    let (key, rest) ← takeKey? (cs.dropWhile Text.isInlineBlank)
    match rest.dropWhile Text.isInlineBlank with
    | '.' :: more =>
      let (keys, last) ← takeKeys? rounds more
      return (key :: keys, last)
    | more => return ([key], more)

/-- Take the keys and the value of an entry; `value` takes the value. -/
def takeEntry? (value : List Char → Option (Toml × List Char)) (cs : List Char) :
    Option ((List String × Toml) × List Char) := do
  let (keys, rest) ← takeKeys? cs.length cs
  let rest ← takeChar? '=' rest
  let (found, rest) ← value (rest.dropWhile Text.isInlineBlank)
  return ((keys, found), rest)

/-- Take the items of an array from behind its bracket or a comma. -/
def takeItems? (value : List Char → Option (Toml × List Char)) :
    Nat → List Char → Option (List Toml × List Char)
  | 0, _ => none
  | rounds + 1, cs => do
    match ← skipAll? cs with
    | ']' :: rest => return ([], rest)
    | cs =>
      let (item, rest) ← value cs
      match ← skipAll? rest with
      | ',' :: more =>
        let (items, last) ← takeItems? value rounds more
        return (item :: items, last)
      | ']' :: more => return ([item], more)
      | _ => none

/-- Take the entries of an inline table from behind its brace or a comma. -/
def takeMembers? (value : List Char → Option (Toml × List Char)) (entries : Entries) :
    Nat → List Char → Option (Entries × List Char)
  | 0, _ => none
  | rounds + 1, cs => do
    match ← skipAll? cs with
    | '\x7d' :: rest => return (entries, rest)
    | cs =>
      let ((keys, found), rest) ← takeEntry? value cs
      let entries ← entries.addAt? keys found
      match ← skipAll? rest with
      | ',' :: more => takeMembers? value entries rounds more
      | '\x7d' :: more => return (entries, more)
      | _ => none

/-- Take a value in which arrays and inline tables nest no deeper than `depth`. -/
def takeValue? : Nat → List Char → Option (Toml × List Char)
  | _, '"' :: rest => (takeText? ('"' :: rest)).map fun (taken, more) => (.text taken, more)
  | _, '\'' :: rest => (takeText? ('\'' :: rest)).map fun (taken, more) => (.text taken, more)
  | 0, '[' :: _ | 0, '\x7b' :: _ => none
  | depth + 1, '[' :: rest =>
    (takeItems? (takeValue? depth) (rest.length + 1) rest).map fun (items, more) =>
      (.array items, more)
  | depth + 1, '\x7b' :: rest =>
    (takeMembers? (takeValue? depth) [] (rest.length + 1) rest).map fun (entries, more) =>
      (.table .inline entries, more)
  | _, cs =>
    let (run, rest) := takeRun cs
    (ofRun? run).map fun value => (value, rest)

/-- How deep arrays and inline tables may nest. -/
def depthLimit : Nat := 80

/-- A line that is not empty. -/
inductive Line where
  | entry (keys : List String) (value : Toml)
  | table (keys : List String)
  /-- The header of an element of an array of tables. -/
  | element (keys : List String)

def takeLine? (cs : List Char) : Option (Line × List Char) :=
  match cs with
  | '[' :: '[' :: rest => do
    let (keys, rest) ← takeKeys? rest.length rest
    let rest ← takeChar? ']' rest
    let rest ← takeChar? ']' rest
    return (.element keys, rest)
  | '[' :: rest => do
    let (keys, rest) ← takeKeys? rest.length rest
    let rest ← takeChar? ']' rest
    return (.table keys, rest)
  | _ => do
    let ((keys, value), rest) ← takeEntry? (takeValue? depthLimit) cs
    return (.entry keys value, rest)

/-- Carry out a line: the document after it, and the path of the table that is open. -/
def Line.apply? (entries : Entries) (opened : List String) : Line → Option (Entries × List String)
  | entry keys value =>
    (entries.update? .header (·.addAt? keys value) opened).map fun changed => (changed, opened)
  | table keys => (entries.openTable? keys).map fun changed => (changed, keys)
  | element keys => (entries.openElement? keys).map fun changed => (changed, keys)

/-- Read the lines of a document. Each round reads one line that is not empty. -/
def readLines? : Nat → Entries → List String → List Char → Option Entries
  | 0, _, _, _ => none
  | rounds + 1, entries, opened, cs => do
    match ← skipAll? cs with
    | [] => return entries
    | cs =>
      let (line, rest) ← takeLine? cs
      let (entries, opened) ← line.apply? entries opened
      let rest ← skipBlanks? rest
      if rest.isEmpty then return entries
      else
        let (_, more) ← takeNewLine? rest
        readLines? rounds entries opened more

/-- Read a document: the entries of its outermost table. A byte order mark in front is skipped. -/
def read? (text : String) : Option Entries :=
  let cs := match text.toList with
    | '\uFEFF' :: rest => rest
    | cs => cs
  readLines? (cs.length + 1) [] [] cs

end PageCheck.Toml
