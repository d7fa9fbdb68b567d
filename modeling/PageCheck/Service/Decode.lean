import PageCheck.Json.Reader
import PageCheck.Service.Answer

/-! # Decoding service answers

From JSON values to the answers of the two services. A record is an object whose known members
occur at most once, whatever else it holds, or the array of its fields in order, of which the last
may be missing. An absent field is the same as a null one, save that a message's `type` is never
null.
-/

namespace PageCheck

namespace Json

/-- The value of a member that occurs at most once: none if it occurs twice, else whether it is
    there and what it is. -/
def memberOnce? (members : List (Meaning × Json)) (name : String) : Option (Option Json) :=
  match members.filter (·.1 = some name) with
  | [] => some none
  | [(_, value)] => some (some value)
  | _ => none

/-- The values of a record's fields, in the order of their names; none if the value is no such
    record. Every key of a record must denote a text. -/
def fields? (names : List String) : Json → Option (List (Option Json))
  | .object members =>
    if members.all (·.1.isSome) then names.mapM (memberOnce? members) else none
  | .array items =>
    if items.length ≤ names.length then
      some ((List.range names.length).map fun i => items[i]?)
    else none
  | _ => none

/-- A field that is absent or null, or is read by `read`. -/
def optional? (read : Json → Option α) : Option Json → Option (Option α)
  | none => some none
  | some .null => some none
  | some value => (read value).map some

def text? : Json → Option String
  | .string text => text
  | _ => none

/-- A line or column: a plain number below 2 to the power of 32. -/
def position? : Json → Option UInt32
  | .natural value => if value < UInt32.size then some (UInt32.ofNat value) else none
  | _ => none

/-- A list whose items are all read by `read`. -/
def list? (read : Json → Option α) : Json → Option (List α)
  | .array items => items.mapM read
  | _ => none

end Json

/-- The fields of an item of the markup service, in their order. -/
def MarkupMessage.names : List String :=
  ["type", "lastLine", "lastColumn", "message"]

def MarkupMessage.ofJson? (value : Json) : Option MarkupMessage := do
  match ← value.fields? names with
  | [kind, lastLine, lastColumn, message] =>
    return {
      kind := ← match kind with
        | none => some ""
        | some value => value.text?
      lastLine := ← Json.optional? Json.position? lastLine
      lastColumn := ← Json.optional? Json.position? lastColumn
      message := ← Json.optional? Json.text? message }
  | _ => none

def MarkupAnswer.names : List String :=
  ["messages"]

def MarkupAnswer.ofJson? (value : Json) : Option MarkupAnswer := do
  match ← value.fields? names with
  | [messages] =>
    return { messages := ← Json.optional? (Json.list? MarkupMessage.ofJson?) messages }
  | _ => none

/-- The fields of an item of the style sheet service, in their order. -/
def StyleMessage.names : List String :=
  ["line", "message"]

def StyleMessage.ofJson? (value : Json) : Option StyleMessage := do
  match ← value.fields? names with
  | [line, message] =>
    return {
      line := ← Json.optional? Json.position? line
      message := ← Json.optional? Json.text? message }
  | _ => none

def StyleAnswer.names : List String :=
  ["errors", "warnings"]

def StyleAnswer.ofJson? (value : Json) : Option StyleAnswer := do
  match ← value.fields? names with
  | [errors, warnings] =>
    return {
      errors := ← Json.optional? (Json.list? StyleMessage.ofJson?) errors
      warnings := ← Json.optional? (Json.list? StyleMessage.ofJson?) warnings }
  | _ => none

def StyleEnvelope.names : List String :=
  ["cssvalidation"]

def StyleEnvelope.ofJson? (value : Json) : Option StyleEnvelope := do
  match ← value.fields? names with
  | [validation] => return { validation := ← Json.optional? StyleAnswer.ofJson? validation }
  | _ => none

def MarkupAnswer.read (body : String) : Option MarkupAnswer :=
  (Json.read body).bind MarkupAnswer.ofJson?

def StyleEnvelope.read (body : String) : Option StyleEnvelope :=
  (Json.read body).bind StyleEnvelope.ofJson?

end PageCheck
