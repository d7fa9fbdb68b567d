import PageCheck.Toml.Reader
import PageCheck.Yaml.Node

/-! # Settings files

What a settings file may set, read from either notation. Unknown keys are ignored; a value of the
wrong kind, or a known key that occurs twice, makes the whole file malformed. Numbers are plain
ones below 2 to the power of 64.
-/

namespace PageCheck

/-- The content of a settings file. What is not set is left to the defaults. -/
structure SettingsFile where
  output : Option String := none
  profile : Option String := none
  media : Option String := none
  reportType : Option String := none
  htmlUrl : Option String := none
  cssUrl : Option String := none
  timeout : Option UInt64 := none
  deriving DecidableEq, Repr

/-- The values of a list of optional fields, each read in its own way, make up a settings file. -/
def SettingsFile.ofFields? (text? : Option α → Option (Option String))
    (number? : Option α → Option (Option UInt64)) (output : Option α)
    (style service : List (Option α)) : Option SettingsFile :=
  match style, service with
  | [profile, media, reportType], [htmlUrl, cssUrl, timeout] => do
    return {
      output := ← text? output
      profile := ← text? profile
      media := ← text? media
      reportType := ← text? reportType
      htmlUrl := ← text? htmlUrl
      cssUrl := ← text? cssUrl
      timeout := ← number? timeout }
  | _, _ => none

def styleKeys : List String := ["profile", "media", "report_type"]

def serviceKeys : List String := ["html_url", "css_url", "timeout_secs"]

def word64? (value : Nat) : Option UInt64 :=
  if value < UInt64.size then some (UInt64.ofNat value) else none

namespace Toml

/-- A field that is absent or a text. -/
def textField? : Option Toml → Option (Option String)
  | none => some none
  | some (text value) => some (some value)
  | some _ => none

/-- A field that is absent or a number. -/
def numberField? : Option Toml → Option (Option UInt64)
  | none => some none
  | some (integer value) => if 0 ≤ value then (word64? value.toNat).map some else none
  | some _ => none

/-- The fields of a section: a table, or the array of all fields in order. -/
def sectionFields? (keys : List String) : Option Toml → Option (List (Option Toml))
  | none => some (keys.map fun _ => none)
  | some (table _ entries) => some (keys.map (List.lookup · entries))
  | some (array items) => if items.length = keys.length then some (items.map some) else none
  | some _ => none

def Entries.settings? (entries : Entries) : Option SettingsFile := do
  let style ← sectionFields? styleKeys (entries.lookup "css")
  let service ← sectionFields? serviceKeys (entries.lookup "service")
  SettingsFile.ofFields? textField? numberField? (entries.lookup "output") style service

end Toml

namespace Yaml

/-- Whether a plain text stands for nothing. -/
def isNullWord (text : String) : Bool :=
  text = "null" || text = "Null" || text = "NULL" || text = "~"

/-- The value of digits in a base up to sixteen. -/
def digitsValue? (base : Nat) (digits : List Char) : Option Nat := do
  if digits.isEmpty then none
  else
    let values ← digits.mapM Json.hexDigit?
    if values.all (· < base) then some (values.foldl (fun n d => base * n + d) 0) else none

/-- The value of a number without a minus. A base other than ten is named in front; digits in base
    ten do not begin with a zero that could be left out. -/
def natural? (text : String) : Option Nat :=
  let unsigned := match text.toList with
    | '+' :: rest => rest
    | cs => cs
  match unsigned with
  | '0' :: 'x' :: digits => digitsValue? 16 digits
  | '0' :: 'o' :: digits => digitsValue? 8 digits
  | '0' :: 'b' :: digits => digitsValue? 2 digits
  | '0' :: _ :: _ => none
  | digits => digitsValue? 10 digits

/-- The full form of a tag of the standard set. -/
def standardTag (name : String) : String :=
  "tag:yaml.org,2002:" ++ name

/-- A field that is absent, stands for nothing, or is read by `read`. -/
def Document.field? (document : Document) (read : Node → Option α) :
    Option Node → Option (Option α)
  | none => some none
  | some node =>
    let found := document.resolve node
    match found with
    | .scalar tag .plain text =>
      if tag = none then
        if text.isEmpty || isNullWord text then some none else (read found).map some
      else if tag = some (standardTag "null") then
        if isNullWord text then some none else none
      else (read found).map some
    | _ => (read found).map some

/-- The text of a node, whatever it looks like. -/
def Node.text? : Node → Option String
  | scalar _ _ text => some text
  | _ => none

def Node.number? : Node → Option UInt64
  | scalar _ .plain text => (natural? text).bind word64?
  | scalar (some tag) .literal text =>
    if tag = standardTag "int" then (natural? text).bind word64? else none
  | _ => none

/-- The fields of a section. The keys of a mapping are texts; no mapping at all counts as an empty
    one. -/
def Document.sectionFields? (document : Document) (keys : List String) :
    Node → Option (List (Option Node))
  | .mapping entries => do
    let named ← entries.mapM fun (key, value) =>
      (document.resolve key).text?.map fun name => (name, value)
    keys.mapM fun key =>
      match named.filter (·.1 = key) with
      | [] => some none
      | [(_, value)] => some (some value)
      | _ => none
  | .scalar _ .plain "" => some (keys.map fun _ => none)
  | _ => none

/-- The fields of a section that may be absent. -/
def Document.optionalFields? (document : Document) (keys : List String) (node : Option Node) :
    Option (List (Option Node)) := do
  match ← document.field? (document.sectionFields? keys) node with
  | some fields => return fields
  | none => return keys.map fun _ => none

def Document.settings? (document : Document) : Option SettingsFile := do
  match ← document.sectionFields? ["output", "css", "service"] (document.resolve document.root) with
  | [output, style, service] =>
    let style ← document.optionalFields? styleKeys style
    let service ← document.optionalFields? serviceKeys service
    SettingsFile.ofFields? (document.field? Node.text?) (document.field? Node.number?) output style
      service
  | _ => none

end Yaml

def SettingsFile.ofToml? (text : String) : Option SettingsFile :=
  (Toml.read? text).bind Toml.Entries.settings?

/-- Read a settings file in YAML; one without a document sets nothing. -/
def SettingsFile.ofYaml? (text : String) : Option SettingsFile := do
  match ← Yaml.read? text with
  | some document => document.settings?
  | none => return {}

end PageCheck
