import PageCheck.Toml.Basic

/-! # Numbers, dates and words

The values that are written without quotes or brackets. Each is a run of letters, digits and a few
signs; what the run means is decided when all of it has been read.
-/

namespace PageCheck.Toml

/-- The digits of a run in which underscores may stand between two digits. -/
def digitRun? (isDigit : Char → Bool) (cs : List Char) : Option (List Char) :=
  let pieces := cs.splitOn '_'
  if pieces.all (fun piece => !piece.isEmpty && piece.all isDigit) then some pieces.flatten
  else none

/-- The value of a hexadecimal digit, which other bases share. -/
def digitValue (c : Char) : Nat :=
  if c.isDigit then c.toNat - '0'.toNat
  else if c.isUpper then c.toNat - 'A'.toNat + 10
  else c.toNat - 'a'.toNat + 10

def numeral (base : Nat) (digits : List Char) : Nat :=
  digits.foldl (fun value c => base * value + digitValue c) 0

def isHexDigit (c : Char) : Bool :=
  c.isDigit || ('a' ≤ c && c ≤ 'f') || ('A' ≤ c && c ≤ 'F')

/-- The digits of a whole number in base ten, which does not begin with a zero that could be left
    out. -/
def wholeDigits? (cs : List Char) : Option (List Char) :=
  match digitRun? Char.isDigit cs with
  | some ('0' :: _ :: _) => none
  | digits => digits

/-- Take a sign from the front of a run, and say whether it is a minus. -/
def takeSign : List Char → Bool × List Char
  | '-' :: rest => (true, rest)
  | '+' :: rest => (false, rest)
  | cs => (false, cs)

def integer? (cs : List Char) : Option Int :=
  match cs with
  | '0' :: 'x' :: rest =>
    (digitRun? isHexDigit rest).map fun digits => Int.ofNat (numeral 16 digits)
  | '0' :: 'o' :: rest =>
    (digitRun? (fun c => '0' ≤ c && c ≤ '7') rest).map fun digits => Int.ofNat (numeral 8 digits)
  | '0' :: 'b' :: rest =>
    (digitRun? (fun c => c = '0' || c = '1') rest).map fun digits => Int.ofNat (numeral 2 digits)
  | _ =>
    let (negative, unsigned) := takeSign cs
    (wholeDigits? unsigned).map fun digits =>
      if negative then -Int.ofNat (numeral 10 digits) else Int.ofNat (numeral 10 digits)

/-- Whether an integer is one that can be held at all, in a signed or an unsigned word of 128
    bits. -/
def isHeld (value : Int) : Bool :=
  -Int.ofNat (Nat.pow 2 127) ≤ value && value < Int.ofNat (Nat.pow 2 128)

/-- Whether digits times a power of ten stay below what rounds to infinity in double precision. -/
def isFinite (digits : List Char) (exponent : Int) : Bool :=
  let significant := digits.dropWhile (· = '0')
  let places : Int := significant.length + exponent
  if significant.isEmpty || places < 309 then true
  else if 309 < places then false
  else
    let scale := Nat.pow 10 exponent.natAbs
    let value := numeral 10 significant
    let bound := Nat.pow 2 1024 - Nat.pow 2 970
    if 0 ≤ exponent then value * scale < bound else value < bound * scale

/-- Whether a run is a float: a whole part, and a fraction or an exponent or both. -/
def isFloat (cs : List Char) : Bool :=
  let unsigned := (takeSign cs).2
  if unsigned = ['i', 'n', 'f'] ∨ unsigned = ['n', 'a', 'n'] then true
  else
    let isMark (c : Char) : Bool := c = 'e' || c = 'E'
    let mantissa := unsigned.takeWhile (!isMark ·)
    let power := unsigned.dropWhile (!isMark ·)
    let whole := mantissa.takeWhile (· ≠ '.')
    let fraction := mantissa.dropWhile (· ≠ '.')
    if power.isEmpty && fraction.isEmpty then false
    else
      let fractionDigits :=
        if fraction.isEmpty then some [] else digitRun? Char.isDigit (fraction.drop 1)
      let (negative, powerText) := takeSign (power.drop 1)
      let powerDigits := if power.isEmpty then some [] else digitRun? Char.isDigit powerText
      match wholeDigits? whole, fractionDigits, powerDigits with
      | some wholePart, some fractionPart, some powerPart =>
        let size := Int.ofNat (numeral 10 powerPart)
        let exponent := (if negative then -size else size) - Int.ofNat fractionPart.length
        isFinite (wholePart ++ fractionPart) exponent
      | _, _, _ => false

/-- Take a number of the given count of digits. -/
def takeDigits? (count : Nat) (cs : List Char) : Option (Nat × List Char) :=
  let digits := cs.take count
  if digits.length = count && digits.all Char.isDigit then some (numeral 10 digits, cs.drop count)
  else none

def takeChar? (c : Char) : List Char → Option (List Char)
  | x :: rest => if x = c then some rest else none
  | [] => none

def daysIn (year month : Nat) : Nat :=
  if month = 2 then
    if year % 4 = 0 ∧ (year % 100 ≠ 0 ∨ year % 400 = 0) then 29 else 28
  else if month = 4 ∨ month = 6 ∨ month = 9 ∨ month = 11 then 30
  else 31

/-- What follows a date. -/
def date? (cs : List Char) : Option (List Char) := do
  let (year, cs) ← takeDigits? 4 cs
  let cs ← takeChar? '-' cs
  let (month, cs) ← takeDigits? 2 cs
  let cs ← takeChar? '-' cs
  let (day, cs) ← takeDigits? 2 cs
  if 1 ≤ month ∧ month ≤ 12 ∧ 1 ≤ day ∧ day ≤ daysIn year month then some cs else none

/-- What follows the fraction of a second, if there is one. -/
def secondFraction? : List Char → Option (List Char)
  | '.' :: rest => do
    let (_, _) ← takeDigits? 1 rest
    return rest.dropWhile Char.isDigit
  | cs => some cs

/-- What follows a time of day. The seconds may be left out; one leap second is admitted. -/
def time? (cs : List Char) : Option (List Char) := do
  let (hour, cs) ← takeDigits? 2 cs
  let cs ← takeChar? ':' cs
  let (minute, cs) ← takeDigits? 2 cs
  if hour ≤ 23 ∧ minute ≤ 59 then
    match cs with
    | ':' :: rest =>
      let (second, cs) ← takeDigits? 2 rest
      if second ≤ 60 then secondFraction? cs else none
    | cs => some cs
  else none

/-- Whether the characters are an offset from universal time, or nothing. -/
def isOffset : List Char → Bool
  | [] => true
  | 'Z' :: rest | 'z' :: rest => rest.isEmpty
  | sign :: rest =>
    let minutes := do
      let (hour, cs) ← takeDigits? 2 rest
      let cs ← takeChar? ':' cs
      let (minute, cs) ← takeDigits? 2 cs
      if hour ≤ 24 ∧ minute ≤ 59 ∧ cs.isEmpty then some (60 * hour + minute) else none
    (sign = '+' || sign = '-') && minutes.any (· ≤ 24 * 60)

/-- Whether a run is a date, a time, or both with an optional offset. -/
def isDateTime (cs : List Char) : Bool :=
  match date? cs with
  | some [] => true
  | some (separator :: rest) =>
    (separator = 'T' || separator = 't' || separator = ' ') && (time? rest).any isOffset
  | none => time? cs = some []

def isRunChar (c : Char) : Bool :=
  c.isAlphanum || c = '_' || c = '+' || c = '-' || c = '.' || c = ':'

/-- Take a run from the front. A date takes in the time that a single blank sets off from it. -/
def takeRun (cs : List Char) : List Char × List Char :=
  let run := cs.takeWhile isRunChar
  let rest := cs.dropWhile isRunChar
  match date? run, rest with
  | some [], ' ' :: c :: more =>
    if c.isDigit then
      (run ++ ' ' :: (c :: more).takeWhile isRunChar, (c :: more).dropWhile isRunChar)
    else (run, rest)
  | _, _ => (run, rest)

def ofRun? (run : List Char) : Option Toml :=
  match integer? run with
  | some value => if isHeld value then some (.integer value) else none
  | none =>
    let isTruth := run = ['t', 'r', 'u', 'e'] ∨ run = ['f', 'a', 'l', 's', 'e']
    if isTruth ∨ isFloat run ∨ isDateTime run then some .other else none

end PageCheck.Toml
