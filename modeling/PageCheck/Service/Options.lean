import PageCheck.Text.Character

/-! # Style options

What is passed on to the style sheet service beside the text: a profile, a medium, and how much it
is to report.
-/

namespace PageCheck

/-- How much the style sheet service reports. -/
inductive ReportLevel where
  | all
  | mostImportant
  | noWarnings
  | normal
  deriving DecidableEq, Repr

namespace ReportLevel

/-- The level that a user's words select; words that name no level select the normal one. -/
def ofText (text : String) : ReportLevel :=
  match Text.trim text with
  | "all" => all
  | "most important" => mostImportant
  | "no warnings" => noWarnings
  | _ => normal

/-- The service's own name for a level. -/
def parameter : ReportLevel → String
  | all => "2"
  | mostImportant => "0"
  | noWarnings => "no"
  | normal => "1"

end ReportLevel

structure StyleOptions where
  profile : String := "css3"
  medium : String := "all"
  level : ReportLevel := .normal
  deriving DecidableEq, Repr

end PageCheck
