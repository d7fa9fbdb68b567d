/-! # Service answers

The results of the two services in their own shapes, and the one list of diagnostics that each is
brought to. Nothing is dropped on the way: each item of an answer becomes one diagnostic. A call
that ends without a result is a failure.
-/

namespace PageCheck

/-- How grave a finding is. An `info` is never reported. -/
inductive Severity where
  | info
  | warning
  | error
  deriving DecidableEq, Repr

/-- The severity that a service's tag stands for. A document that could not be read counts as an
    error; an unknown tag is an `info`. -/
def Severity.ofTag (tag : String) : Severity :=
  if tag = "error" ∨ tag = "non-document-error" then .error
  else if tag = "warning" then .warning
  else .info

/-- A finding, with the line and column it is anchored to as far as the service gave them. Both
    are counted from one. -/
structure Diagnostic where
  severity : Severity
  line : Option UInt32
  column : Option UInt32
  message : String
  deriving DecidableEq, Repr

/-- Why a call to a service has no result. -/
inductive Failure where
  /-- The request could not be made. -/
  | transport (url message : String)
  /-- The service answered with an error status. -/
  | status (url : String) (code : UInt16)
  /-- The answer could not be read. -/
  | decode (url message : String)
  /-- The service answered with an error in place of a result. -/
  | service (message : String)
  deriving DecidableEq, Repr

def Failure.message : Failure → String
  | transport url message => "request to " ++ url ++ " failed: " ++ message
  | status url code => url ++ " answered with HTTP " ++ toString code.toNat
  | decode url message => "response from " ++ url ++ " could not be decoded: " ++ message
  | service message => message

/-- One item of the markup service's flat list. -/
structure MarkupMessage where
  kind : String := ""
  lastLine : Option UInt32 := none
  lastColumn : Option UInt32 := none
  message : Option String := none
  deriving DecidableEq, Repr

/-- The markup service's answer; without messages it is no validation result. -/
structure MarkupAnswer where
  messages : Option (List MarkupMessage) := none
  deriving DecidableEq, Repr

/-- One item of the style sheet service's two lists. -/
structure StyleMessage where
  line : Option UInt32 := none
  message : Option String := none
  deriving DecidableEq, Repr

structure StyleAnswer where
  errors : Option (List StyleMessage) := none
  warnings : Option (List StyleMessage) := none
  deriving DecidableEq, Repr

/-- What the style sheet service sends: its result in an envelope, which may be empty. -/
structure StyleEnvelope where
  validation : Option StyleAnswer := none
  deriving DecidableEq, Repr

def MarkupMessage.diagnostic (item : MarkupMessage) : Diagnostic :=
  { severity := Severity.ofTag item.kind
    line := item.lastLine
    column := item.lastColumn
    message := item.message.getD "" }

def markupDiagnostics (items : List MarkupMessage) : List Diagnostic :=
  items.map MarkupMessage.diagnostic

/-- The diagnostic of one item of the style sheet service; the list that holds it gives the
    severity. -/
def StyleMessage.diagnostic (severity : Severity) (item : StyleMessage) : Diagnostic :=
  { severity := severity
    line := item.line
    column := none
    message := item.message.getD "" }

/-- The diagnostics of a style sheet result: all errors, then all warnings. -/
def StyleAnswer.diagnostics (answer : StyleAnswer) : List Diagnostic :=
  (answer.errors.getD []).map (StyleMessage.diagnostic .error) ++
    (answer.warnings.getD []).map (StyleMessage.diagnostic .warning)

end PageCheck
