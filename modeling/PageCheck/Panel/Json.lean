import PageCheck.Dispatch.Basic
import PageCheck.Json.Writer

/-! # The panel as JSON

One object for each run: the document's path, the entries as the panel shows them, and how the run
ended with its counts. Lines and columns are null where there are none; a detail is left out.
-/

namespace PageCheck

def Json.record (members : List (String × Json)) : Json :=
  .object (members.map fun (name, value) => (some name, value))

def Json.ofText (text : String) : Json :=
  .string (some text)

def Json.ofPosition : Option UInt32 → Json
  | some number => .natural number.toNat
  | none => .null

def Entry.toJson : Entry → Json
  | progress message => .record [("kind", .ofText "progress"), ("message", .ofText message)]
  | plain message detail style =>
    let details := match detail with
      | some text => [("detail", Json.ofText text)]
      | none => []
    .record ([("kind", .ofText "plain"), ("message", .ofText message)] ++ details ++
      [("class", .ofText style.name)])
  | finding line column message preview style =>
    .record
      [("kind", .ofText "line"), ("line", .ofPosition line), ("column", .ofPosition column),
        ("message", .ofText message), ("preview", .ofText preview), ("class", .ofText style.name)]

def Status.name : Status → String
  | skipped => "skipped"
  | completed _ _ => "completed"
  | failed => "failed"
  | stale => "stale"

def Status.errors : Status → Nat
  | completed errors _ => errors
  | _ => 0

def Status.warnings : Status → Nat
  | completed _ warnings => warnings
  | _ => 0

/-- What a run left on the panel, as JSON. -/
def panelJson (path : String) (entries : List Entry) (status : Status) : Json :=
  .record
    [("path", .ofText path), ("entries", .array (entries.map Entry.toJson)),
      ("summary",
        .record
          [("status", .ofText status.name), ("errors", .natural status.errors),
            ("warnings", .natural status.warnings)])]

end PageCheck
