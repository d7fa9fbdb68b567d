import PageCheck.Service.Answer

/-! # Report entries

The items that the results panel shows, from the progress note to the single findings.
-/

namespace PageCheck

inductive EntryClass where
  | plain
  | info
  | success
  | warning
  | error
  deriving DecidableEq, Repr

namespace EntryClass

def ofSeverity : Severity → EntryClass
  | .error => error
  | .warning => warning
  | .info => info

def name : EntryClass → String
  | plain => "plain"
  | info => "info"
  | success => "success"
  | warning => "warning"
  | error => "error"

end EntryClass

/-- One item of the results panel. -/
inductive Entry where
  /-- A run has started. -/
  | progress (message : String)
  /-- A message about the run as a whole. -/
  | plain (message : String) (detail : Option String) (style : EntryClass)
  /-- One finding, with a preview of the line it is anchored to. -/
  | finding (line column : Option UInt32) (message preview : String) (style : EntryClass)
  deriving DecidableEq, Repr

namespace Entry

/-- The note that a run on the document at `path` has started. -/
def validating (path : String) : Entry :=
  progress ("Validating " ++ path)

/-- Nothing is reported. -/
def noErrors : Entry :=
  plain "No errors were found!" none .success

/-- The service could not be asked, or refused; `detail` says why. -/
def hardFailure (detail : String) : Entry :=
  plain "Validation fails with error." (some detail) .error

/-- The service answered, but with nothing usable. -/
def emptyResult : Entry :=
  plain "Validation fails without error." none .error

/-- The class of an entry; a progress note has none. -/
def style? : Entry → Option EntryClass
  | progress _ => none
  | plain _ _ style => some style
  | finding _ _ _ _ style => some style

def isFinding : Entry → Bool
  | finding .. => true
  | _ => false

end Entry

end PageCheck
