import PageCheck.Json.Basic

/-! # Reading JSON

A machine that takes one character at a time. Its stack holds the arrays and objects that are
still open, so that no depth of nesting is too great for it. A text is read if the machine ends
with one value and nothing open.
-/

namespace PageCheck.Json

/-- The blanks that may stand between the tokens of a text. -/
def isSpace (c : Char) : Bool :=
  c = ' ' || c = '\t' || c = '\n' || c = '\r'

/-- An array or object whose next value is being read. What has been read stands last first. -/
inductive Frame where
  | items (done : List Json)
  | members (done : List (Meaning × Json)) (key : Meaning)

/-- Where the machine stands between two characters. -/
inductive Mode where
  | value
  /-- An array has just been opened: a value begins, or the array ends. -/
  | firstItem
  /-- An object has just been opened: a key begins, or the object ends. -/
  | firstKey
  | key (done : List (Meaning × Json))
  /-- Inside a key. `raw` is the literal so far in reverse. -/
  | keyLiteral (done : List (Meaning × Json)) (raw : List Char) (escaped : Bool)
  /-- A key has ended; its colon follows. -/
  | colon (done : List (Meaning × Json)) (key : Meaning)
  | literal (raw : List Char) (escaped : Bool)
  /-- Inside a number, which ends with the first character that cannot belong to one. -/
  | number (raw : List Char)
  /-- Inside one of the three words. -/
  | word (raw : List Char)
  | done (value : Json)

/-- The machine: its mode, and what is open around it, innermost first. -/
structure Machine where
  mode : Mode
  frames : List Frame

/-- Remove digits from the front of a list, of which there must be one at least. -/
def digits? : List Char → Option (List Char)
  | c :: rest => if c.isDigit then some (rest.dropWhile Char.isDigit) else none
  | [] => none

/-- What follows the whole part of a number: a single zero, or digits that do not begin with one. -/
def whole? : List Char → Option (List Char)
  | '0' :: rest => some rest
  | cs => digits? cs

/-- What follows the fraction of a number, if it has one. -/
def fraction? : List Char → Option (List Char)
  | '.' :: rest => digits? rest
  | cs => some cs

/-- What follows the exponent of a number, if it has one. -/
def exponent? : List Char → Option (List Char)
  | c :: rest =>
    if c = 'e' ∨ c = 'E' then
      match rest with
      | '+' :: more => digits? more
      | '-' :: more => digits? more
      | more => digits? more
    else some (c :: rest)
  | [] => some []

/-- Whether the characters are a number. -/
def isNumber (cs : List Char) : Bool :=
  let unsigned := match cs with
    | '-' :: rest => rest
    | _ => cs
  (do exponent? (← fraction? (← whole? unsigned))) = some []

def digitsValue (cs : List Char) : Nat :=
  cs.foldl (fun n c => 10 * n + (c.toNat - '0'.toNat)) 0

def number? (cs : List Char) : Option Json :=
  if isNumber cs then
    some (if cs.all Char.isDigit then .natural (digitsValue cs) else .numeral (String.ofList cs))
  else none

def word? (cs : List Char) : Option Json :=
  if cs = ['n', 'u', 'l', 'l'] then some .null
  else if cs = ['t', 'r', 'u', 'e'] then some (.bool true)
  else if cs = ['f', 'a', 'l', 's', 'e'] then some (.bool false)
  else none

def isNumberChar (c : Char) : Bool :=
  c.isDigit || c = '-' || c = '+' || c = '.' || c = 'e' || c = 'E'

namespace Machine

def start : Machine :=
  ⟨.value, []⟩

def beginValue (frames : List Frame) (c : Char) : Option Machine :=
  if c = '"' then some ⟨.literal [] false, frames⟩
  else if c = '[' then some ⟨.firstItem, frames⟩
  else if c = '\x7b' then some ⟨.firstKey, frames⟩
  else if c.isDigit ∨ c = '-' then some ⟨.number [c], frames⟩
  else if c.isAlpha then some ⟨.word [c], frames⟩
  else none

/-- What follows a value: a separator, or the end of what it stands in. -/
def afterValue (value : Json) (frames : List Frame) (c : Char) : Option Machine :=
  match frames with
  | [] => none
  | .items done :: outer =>
    if c = ',' then some ⟨.value, .items (value :: done) :: outer⟩
    else if c = ']' then some ⟨.done (.array (value :: done).reverse), outer⟩
    else none
  | .members done key :: outer =>
    if c = ',' then some ⟨.key ((key, value) :: done), outer⟩
    else if c = '\x7d' then some ⟨.done (.object ((key, value) :: done).reverse), outer⟩
    else none

/-- End a number or a word, which nothing else does. -/
def settle (machine : Machine) : Option Machine :=
  match machine.mode with
  | .number raw => (number? raw.reverse).map fun value => ⟨.done value, machine.frames⟩
  | .word raw => (word? raw.reverse).map fun value => ⟨.done value, machine.frames⟩
  | _ => some machine

/-- Take a character that does not belong to a number or a word. -/
def advance (machine : Machine) (c : Char) : Option Machine :=
  let frames := machine.frames
  match machine.mode with
  | .literal raw true => some ⟨.literal (c :: raw) false, frames⟩
  | .literal raw false =>
    if c = '"' then (decode raw.reverse).map fun text => ⟨.done (.string text), frames⟩
    else some ⟨.literal (c :: raw) (c = '\\'), frames⟩
  | .keyLiteral done raw true => some ⟨.keyLiteral done (c :: raw) false, frames⟩
  | .keyLiteral done raw false =>
    if c = '"' then (decode raw.reverse).map fun key => ⟨.colon done key, frames⟩
    else some ⟨.keyLiteral done (c :: raw) (c = '\\'), frames⟩
  | .value => if isSpace c then some machine else beginValue frames c
  | .firstItem =>
    if isSpace c then some machine
    else if c = ']' then some ⟨.done (.array []), frames⟩
    else beginValue (.items [] :: frames) c
  | .firstKey =>
    if isSpace c then some machine
    else if c = '\x7d' then some ⟨.done (.object []), frames⟩
    else if c = '"' then some ⟨.keyLiteral [] [] false, frames⟩
    else none
  | .key done =>
    if isSpace c then some machine
    else if c = '"' then some ⟨.keyLiteral done [] false, frames⟩
    else none
  | .colon done key =>
    if isSpace c then some machine
    else if c = ':' then some ⟨.value, .members done key :: frames⟩
    else none
  | .done value => if isSpace c then some machine else afterValue value frames c
  | .number _ => none
  | .word _ => none

def step (machine : Machine) (c : Char) : Option Machine :=
  match machine.mode with
  | .number raw =>
    if isNumberChar c then some ⟨.number (c :: raw), machine.frames⟩
    else machine.settle.bind (·.advance c)
  | .word raw =>
    if c.isAlpha then some ⟨.word (c :: raw), machine.frames⟩
    else machine.settle.bind (·.advance c)
  | _ => machine.advance c

/-- The value that has been read, if nothing is open. -/
def result? (machine : Machine) : Option Json :=
  machine.settle.bind fun last =>
    match last with
    | ⟨.done value, []⟩ => some value
    | _ => none

def run (machine : Machine) : List Char → Option Machine
  | [] => some machine
  | c :: rest => (machine.step c).bind (·.run rest)

end Machine

end Json

/-- Read a text that is one JSON value with blanks around it. -/
def Json.read (text : String) : Option Json :=
  (Json.Machine.start.run text.toList).bind Json.Machine.result?

end PageCheck
