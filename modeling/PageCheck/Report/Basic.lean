import PageCheck.Document
import PageCheck.Report.Entry

/-! # Reports

The counted, line-anchored findings of one completed run. A report drops every `info`, keeps the
other findings in their order, and shows with each the trimmed source line it is anchored to. It
begins with the document's path and the two counts, as in `index.html - 1 error, 2 warnings`.
-/

namespace PageCheck

/-- A count and its noun, which is in the singular for one only. -/
def countOf (count : Nat) (noun : String) : String :=
  if count = 1 then toString count ++ " " ++ noun else toString count ++ " " ++ noun ++ "s"

/-- The summary of a report on the document at `path`. -/
def summaryLine (path : String) (errors warnings : Nat) : String :=
  path ++ " - " ++ countOf errors "error" ++ ", " ++ countOf warnings "warning"

/-- The findings of one completed run. -/
structure Report where
  targetPath : String
  errorCount : Nat
  warningCount : Nat
  entries : List Entry
  deriving DecidableEq, Repr

/-- The trimmed text of a line counted from one; empty for an absent line, line zero, or a line
    beyond the last. -/
def Document.preview (doc : Document) (line : Option UInt32) : String :=
  match line with
  | none => ""
  | some number =>
    if number = 0 then "" else ((doc.lineText (number.toNat - 1)).map Text.trim).getD ""

def Document.entryOf (doc : Document) (diagnostic : Diagnostic) : Entry :=
  .finding diagnostic.line diagnostic.column diagnostic.message (doc.preview diagnostic.line)
    (EntryClass.ofSeverity diagnostic.severity)

namespace Report

def shown (diagnostics : List Diagnostic) : List Diagnostic :=
  diagnostics.filter (·.severity ≠ .info)

/-- The report on `doc` from a service's findings: the summary, then the shown findings in order,
    or the note that there are none. -/
def build (doc : Document) (diagnostics : List Diagnostic) : Report :=
  let findings := shown diagnostics
  let errors := findings.countP (·.severity = .error)
  let warnings := findings.countP (·.severity = .warning)
  let summary := Entry.plain (summaryLine doc.path errors warnings) none .plain
  let remark := if findings.isEmpty then [Entry.noErrors] else []
  { targetPath := doc.path
    errorCount := errors
    warningCount := warnings
    entries := summary :: remark ++ findings.map doc.entryOf }

end Report

end PageCheck
