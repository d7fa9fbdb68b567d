import PageCheck.Json.Basic
import PageCheck.Text.Character
import PageCheck.Toml.Basic

/-! # Quoted texts

The four forms of text: with or without escapes, on one line or on several. No form may hold
control characters other than the tab, and a carriage return only as part of a line end.
-/

namespace PageCheck.Toml

/-- Whether a character may stand in a text or a comment. -/
def isPrintable (c : Char) : Bool :=
  c = '\t' || (0x20 ≤ c.toNat && c.toNat ≠ 0x7F)

def takeCodePoint? (count : Nat) (cs : List Char) : Option (Char × List Char) := do
  let digits := cs.take count
  if digits.length = count then return (← Json.codePoint? digits, cs.drop count) else none

/-- Take what follows the backslash of an escape. -/
def takeEscape? : List Char → Option (Char × List Char)
  | '"' :: rest => some ('"', rest)
  | '\\' :: rest => some ('\\', rest)
  | 'b' :: rest => some ('\x08', rest)
  | 'e' :: rest => some ('\x1b', rest)
  | 'f' :: rest => some ('\x0c', rest)
  | 'n' :: rest => some ('\n', rest)
  | 'r' :: rest => some ('\r', rest)
  | 't' :: rest => some ('\t', rest)
  | 'u' :: rest => takeCodePoint? 4 rest
  | 'U' :: rest => takeCodePoint? 8 rest
  | 'x' :: rest => takeCodePoint? 2 rest
  | _ => none

def prepend (cs : List Char) : Option (List Char × List Char) → Option (List Char × List Char) :=
  Option.map fun (taken, rest) => (cs ++ taken, rest)

/-- Take a text with escapes on one line, from behind its opening quote. Each round takes at least
    one character. -/
def takeBasic? : Nat → List Char → Option (List Char × List Char)
  | 0, _ | _, [] => none
  | rounds + 1, c :: rest =>
    if c = '"' then some ([], rest)
    else if c = '\\' then
      (takeEscape? rest).bind fun (escaped, more) => prepend [escaped] (takeBasic? rounds more)
    else if isPrintable c then prepend [c] (takeBasic? rounds rest)
    else none

/-- Take a text without escapes on one line, from behind its opening quote. -/
def takeLiteral? : List Char → Option (List Char × List Char)
  | [] => none
  | c :: rest =>
    if c = '\'' then some ([], rest)
    else if isPrintable c then prepend [c] (takeLiteral? rest)
    else none

/-- Take the quotes that end a text on several lines. Up to two more than three belong to it. -/
def takeClosing? (quote : Char) : List Char → Option (List Char × List Char)
  | a :: b :: c :: rest =>
    if a = quote ∧ b = quote ∧ c = quote then
      let more := (rest.take 2).takeWhile (· = quote)
      some (more, rest.drop more.length)
    else none
  | _ => none

def takeNewLine? : List Char → Option (List Char × List Char)
  | '\n' :: rest => some (['\n'], rest)
  | '\r' :: '\n' :: rest => some (['\r', '\n'], rest)
  | _ => none

/-- What follows a backslash at the end of a line: all blanks and line ends are skipped. -/
def afterContinuation? (cs : List Char) : Option (List Char) :=
  (takeNewLine? (cs.dropWhile Text.isInlineBlank)).map fun (_, rest) =>
    rest.dropWhile fun c => Text.isInlineBlank c || c = '\n' || c = '\r'

/-- Take a text on several lines, from behind its opening quotes and a line end that follows them.
    Escapes are read only between double quotes. -/
def takeLines? (quote : Char) : Nat → List Char → Option (List Char × List Char)
  | 0, _ | _, [] => none
  | rounds + 1, c :: rest =>
    match takeClosing? quote (c :: rest), takeNewLine? (c :: rest) with
    | some found, _ => some found
    | none, some (newLine, more) => prepend newLine (takeLines? quote rounds more)
    | none, none =>
      if c = '\\' && quote = '"' then
        match afterContinuation? rest with
        | some more => takeLines? quote rounds more
        | none =>
          (takeEscape? rest).bind fun (escaped, more) =>
            prepend [escaped] (takeLines? quote rounds more)
      else if isPrintable c then prepend [c] (takeLines? quote rounds rest)
      else none

def takeMultiline? (quote : Char) (cs : List Char) : Option (List Char × List Char) :=
  let body := match takeNewLine? cs with
    | some (_, rest) => rest
    | none => cs
  takeLines? quote body.length body

def takeText? : List Char → Option (String × List Char)
  | '"' :: '"' :: '"' :: rest => finish (takeMultiline? '"' rest)
  | '\'' :: '\'' :: '\'' :: rest => finish (takeMultiline? '\'' rest)
  | '"' :: rest => finish (takeBasic? rest.length rest)
  | '\'' :: rest => finish (takeLiteral? rest)
  | _ => none
where
  finish : Option (List Char × List Char) → Option (String × List Char) :=
    Option.map fun (taken, rest) => (String.ofList taken, rest)

end PageCheck.Toml
