import PageCheck.Panel.Json
import PageCheck.Proofs.Report.Basic

/-! # Reading the panel's JSON form

What a reader of the printed object finds under the names of its members.
-/

namespace PageCheck

namespace Json

/-- The value of a member of an object. -/
def member? (name : String) : Json → Option Json
  | object members => members.lookup (some name)
  | _ => none

def isText (text : String) : Json → Bool
  | string (some own) => own = text
  | _ => false

def items : Json → List Json
  | array items => items
  | _ => []

/-- Whether a value is a line entry of the given class. -/
def isLineOf (style : EntryClass) (entry : Json) : Bool :=
  (entry.member? "kind").any (isText "line") && (entry.member? "class").any (isText style.name)

/-- The number of line entries of the given class in a panel's JSON form. -/
def countLines (style : EntryClass) (panel : Json) : Nat :=
  ((panel.member? "entries").map items).getD [] |>.countP (isLineOf style)

/-- The value of a member of the summary in a panel's JSON form. -/
def summary? (name : String) (panel : Json) : Option Json :=
  (panel.member? "summary").bind (member? name)

end Json

theorem EntryClass.name_inj {first second : EntryClass} :
    first.name = second.name ↔ first = second := by
  cases first <;> cases second <;> simp [name]

theorem Entry.isLineOf_toJson (entry : Entry) (style : EntryClass) :
    entry.toJson.isLineOf style = entry.isFindingOf style := by
  cases entry with
  | progress message =>
      simp [toJson, Json.isLineOf, Json.record, Json.member?, Json.ofText, Json.isText, isFindingOf,
        List.lookup_cons]
  | plain message detail own =>
      simp [toJson, Json.isLineOf, Json.record, Json.member?, Json.ofText, Json.isText, isFindingOf,
        List.lookup_cons]
  | finding line column message preview own =>
      simp [toJson, Json.isLineOf, Json.record, Json.member?, Json.ofText, Json.isText, isFindingOf,
        List.lookup_cons, EntryClass.name_inj]

theorem countLines_panelJson (path : String) (entries : List Entry) (status : Status)
    (style : EntryClass) :
    (panelJson path entries status).countLines style = entries.countP (·.isFindingOf style) := by
  have listed : (panelJson path entries status).member? "entries" =
      some (.array (entries.map Entry.toJson)) := by
    simp [panelJson, Json.record, Json.member?, List.lookup_cons]
  simp only [Json.countLines, listed, Option.map_some, Option.getD_some, Json.items]
  rw [List.countP_map]
  apply List.countP_congr
  simp [Entry.isLineOf_toJson]

theorem summary?_panelJson (path : String) (entries : List Entry) (status : Status) :
    (panelJson path entries status).summary? "errors" = some (.natural status.errors) ∧
      (panelJson path entries status).summary? "warnings" = some (.natural status.warnings) := by
  simp [panelJson, Json.record, Json.summary?, Json.member?, List.lookup_cons]

end PageCheck
