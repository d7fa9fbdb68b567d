import PageCheck.Json.Basic

/-! # Writing JSON

The indented form: each item of an array and each member of an object on a line of its own, two
blanks deeper than what it stands in. Empty arrays and objects are written on one line.
-/

namespace PageCheck.Json

/-- A line end and the indentation of the given depth. -/
def newLine (depth : Nat) : List Char :=
  '\n' :: List.replicate (2 * depth) ' '

/-- A string literal with its quotes. -/
def quoted (text : Meaning) : List Char :=
  '"' :: literal text ++ ['"']

mutual

/-- Write a value that stands at the given depth. -/
def write (depth : Nat) : Json → List Char
  | null => "null".toList
  | bool true => "true".toList
  | bool false => "false".toList
  | natural value => (toString value).toList
  | numeral literal => literal.toList
  | string text => quoted text
  | array [] => ['[', ']']
  | array (first :: rest) =>
    '[' :: newLine (depth + 1) ++ write (depth + 1) first ++ writeItems depth rest ++
      newLine depth ++ [']']
  | object [] => ['\x7b', '\x7d']
  | object ((key, first) :: rest) =>
    '\x7b' :: newLine (depth + 1) ++ quoted key ++ [':', ' '] ++ write (depth + 1) first ++
      writeMembers depth rest ++ newLine depth ++ ['\x7d']

/-- Write the further items of an array at the given depth. -/
def writeItems (depth : Nat) : List Json → List Char
  | [] => []
  | item :: rest =>
    ',' :: newLine (depth + 1) ++ write (depth + 1) item ++ writeItems depth rest

/-- Write the further members of an object at the given depth. -/
def writeMembers (depth : Nat) : List (Meaning × Json) → List Char
  | [] => []
  | (key, value) :: rest =>
    ',' :: newLine (depth + 1) ++ quoted key ++ [':', ' '] ++ write (depth + 1) value ++
      writeMembers depth rest

end

def pretty (value : Json) : String :=
  String.ofList (value.write 0)

end PageCheck.Json
