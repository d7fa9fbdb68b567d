/-! # JSON values and string literals

An object is the list of its members as written, repetitions included. A string literal may hold
escapes for surrogates that have no partner; such a literal is well formed but denotes no text.

The text between the quotes of a literal is read by `decode`: an escape names a character or a
sixteen-bit unit, and two units that are a surrogate pair name one character. It is written by
`encode`: only the quote, the backslash and the control characters are escaped.
-/

namespace PageCheck

namespace Json

/-- What a string literal denotes; none for one that holds a surrogate without its partner. -/
abbrev Meaning := Option String

end Json

inductive Json where
  | null
  | bool (value : Bool)
  /-- A number written with digits alone. -/
  | natural (value : Nat)
  /-- Any other number: one with a sign, a fraction or an exponent, as written. -/
  | numeral (literal : String)
  | string (text : Json.Meaning)
  | array (items : List Json)
  | object (members : List (Json.Meaning × Json))
  deriving Inhabited, BEq, Repr

namespace Json

def hexDigit? (c : Char) : Option Nat :=
  if '0' ≤ c ∧ c ≤ '9' then some (c.toNat - '0'.toNat)
  else if 'a' ≤ c ∧ c ≤ 'f' then some (c.toNat - 'a'.toNat + 10)
  else if 'A' ≤ c ∧ c ≤ 'F' then some (c.toNat - 'A'.toNat + 10)
  else none

/-- The character with the number that hexadecimal digits name; none for half of a surrogate pair
    and for numbers beyond the last character. -/
def codePoint? (digits : List Char) : Option Char := do
  let values ← digits.mapM hexDigit?
  let number := values.foldl (fun n d => 16 * n + d) 0
  if number < 0xD800 ∨ (0xDFFF < number ∧ number ≤ 0x10FFFF) then some (Char.ofNat number) else none

/-- The sixteen-bit unit that four hexadecimal digits name. -/
def unit? (a b c d : Char) : Option Nat := do
  return ((← hexDigit? a) * 16 + (← hexDigit? b)) * 256 + (← hexDigit? c) * 16 + (← hexDigit? d)

/-- The character that a one-letter escape names. -/
def shortEscape? : Char → Option Char
  | '"' => some '"'
  | '\\' => some '\\'
  | '/' => some '/'
  | 'b' => some '\x08'
  | 'f' => some '\x0c'
  | 'n' => some '\n'
  | 'r' => some '\r'
  | 't' => some '\t'
  | _ => none

/-- A piece of a literal: a character, or a unit that was named by its number. -/
inductive Piece where
  | char (c : Char)
  | unit (value : Nat)
  deriving DecidableEq, Repr

/-- The pieces of a literal; none if an escape is malformed or a control character stands bare. -/
def pieces? : List Char → Option (List Piece)
  | [] => some []
  | '\\' :: 'u' :: a :: b :: c :: d :: rest => do
    let value ← unit? a b c d
    let others ← pieces? rest
    return .unit value :: others
  | '\\' :: letter :: rest => do
    let c ← shortEscape? letter
    let others ← pieces? rest
    return .char c :: others
  | ['\\'] => none
  | c :: rest => if c.toNat < 0x20 then none else (pieces? rest).map (.char c :: ·)

/-- Whether a unit is the first half of a surrogate pair. -/
def isLead (value : Nat) : Bool :=
  0xD800 ≤ value && value < 0xDC00

/-- Whether a unit is the second half of a surrogate pair. -/
def isTrail (value : Nat) : Bool :=
  0xDC00 ≤ value && value < 0xE000

/-- The characters that pieces denote; none if a half of a pair stands alone. -/
def joinPieces : List Piece → Option (List Char)
  | [] => some []
  | .char c :: rest => (joinPieces rest).map (c :: ·)
  | .unit lead :: .unit trail :: rest =>
    if isLead lead then
      if isTrail trail then
        (joinPieces rest).map
          (Char.ofNat (0x10000 + (lead - 0xD800) * 0x400 + (trail - 0xDC00)) :: ·)
      else none
    else if isTrail lead then none
    else (joinPieces (.unit trail :: rest)).map (Char.ofNat lead :: ·)
  | .unit value :: rest =>
    if isLead value || isTrail value then none
    else (joinPieces rest).map (Char.ofNat value :: ·)

/-- Read a literal: none if it is malformed, else what it denotes. -/
def decode (literal : List Char) : Option Meaning :=
  (pieces? literal).map fun pieces => (joinPieces pieces).map String.ofList

/-- The lower-case hexadecimal digit of a number below sixteen. -/
def hexChar (value : Nat) : Char :=
  if value < 10 then Char.ofNat ('0'.toNat + value) else Char.ofNat ('a'.toNat + (value - 10))

/-- How a character is written in a literal. -/
def encodeChar (c : Char) : List Char :=
  if c = '"' then ['\\', '"']
  else if c = '\\' then ['\\', '\\']
  else if c = '\x08' then ['\\', 'b']
  else if c = '\t' then ['\\', 't']
  else if c = '\n' then ['\\', 'n']
  else if c = '\x0c' then ['\\', 'f']
  else if c = '\r' then ['\\', 'r']
  else if c.toNat < 0x20 then ['\\', 'u', '0', '0', hexChar (c.toNat / 16), hexChar (c.toNat % 16)]
  else [c]

def encode (text : String) : List Char :=
  text.toList.flatMap encodeChar

/-- Write some literal with the given denotation. -/
def literal : Meaning → List Char
  | some text => encode text
  | none => ['\\', 'u', 'd', '8', '0', '0']

end Json

end PageCheck
