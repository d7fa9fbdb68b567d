import PageCheck.Panel.Basic
import PageCheck.Report.Basic
import PageCheck.Service.Answer
import PageCheck.Service.Options

/-! # Dispatch

One run takes a document to its service and the answer to the panel. A run has two halves, so that
the service can answer later: `begin` shows a progress note and says which call to make, and
`complete` commits the outcome of that call.

Every `begin` mints a new token, and `complete` writes only for the token that is still active.
So of overlapping runs the one begun last wins, and each run commits at most once.
-/

namespace PageCheck

/-- The mark of one run. -/
structure Token where
  number : Nat
  deriving DecidableEq, Repr

/-- The call that a run needs. -/
inductive Request where
  | markup (text : String)
  | style (text : String) (options : StyleOptions)
  deriving DecidableEq, Repr

/-- A run that waits for its service. -/
structure Invocation where
  token : Token
  target : Target
  request : Request
  deriving DecidableEq, Repr

/-- What a service came back with. -/
inductive Outcome where
  | markup (result : Except Failure MarkupAnswer)
  | style (result : Except Failure StyleAnswer)

/-- How a run ended, for its caller. -/
inductive Status where
  /-- There was no document, or no service judges it. -/
  | skipped
  /-- A report was committed, with these counts. -/
  | completed (errors warnings : Nat)
  /-- The service failed or gave nothing usable. -/
  | failed
  /-- A later run had begun, or this one had already ended. -/
  | stale
  deriving DecidableEq, Repr

/-- Whether a run that ended so makes the whole program fail. -/
def Status.isFailing : Status → Bool
  | completed errors _ => 0 < errors
  | failed => true
  | skipped | stale => false

/-- What a completed call amounts to, for a run on the given target. -/
inductive Conclusion where
  | findings (diagnostics : List Diagnostic)
  /-- An answer without a result. -/
  | empty
  | failure (detail : String)
  deriving DecidableEq, Repr

/-- The conclusion from an outcome. A result counts only for the target whose service gave it. -/
def Outcome.conclusion (target : Target) : Outcome → Conclusion
  | markup (.error failure) | style (.error failure) => .failure failure.message
  | markup (.ok answer) =>
    match target, answer.messages with
    | .html, some items => .findings (markupDiagnostics items)
    | .html, none => .empty
    | _, _ => foreignResult
  | style (.ok answer) =>
    match target with
    | .css => .findings answer.diagnostics
    | _ => foreignResult
where
  foreignResult : Conclusion :=
    .failure (target.name ++ " validation completed with a result from another validator")

/-- A dispatcher and the panel it writes to. -/
structure Dispatcher where
  panel : Panel
  options : StyleOptions
  /-- The number of tokens minted so far, which is the number of the latest one. -/
  minted : Nat
  /-- The token whose completion may write. -/
  active : Option Token
  /-- Whether the panel has been brought to view. -/
  opened : Bool
  deriving DecidableEq, Repr

namespace Dispatcher

def new (panel : Panel) (options : StyleOptions) : Dispatcher :=
  { panel, options, minted := 0, active := none, opened := false }

/-- The call for a document; none if no service judges it. -/
def request? (dispatcher : Dispatcher) (doc : Document) : Option Request :=
  match doc.target with
  | .html => some (.markup doc.text)
  | .css => some (.style doc.text dispatcher.options)
  | .unsupported => none

/-- The state once a run on `doc` has begun: a new active token, and the progress note alone. -/
def started (dispatcher : Dispatcher) (doc : Document) : Dispatcher :=
  { dispatcher with
    panel := (dispatcher.panel.reveal (!dispatcher.opened)).replace [.validating doc.path]
    minted := dispatcher.minted + 1
    active := some ⟨dispatcher.minted + 1⟩
    opened := true }

/-- Begin a run. Without a document nothing happens; a document that no service judges leaves its
    progress note but needs no call. -/
def begin (dispatcher : Dispatcher) : Option Document → Dispatcher × Option Invocation
  | none => (dispatcher, none)
  | some doc =>
    (dispatcher.started doc,
      (dispatcher.request? doc).map fun request =>
        { token := ⟨dispatcher.minted + 1⟩, target := doc.target, request })

/-- Commit a conclusion on `doc` to the panel, and say how the run ended. An answer without a result
    is noted below what the panel shows; anything else replaces it. -/
def commit (dispatcher : Dispatcher) (doc : Document) : Conclusion → Dispatcher × Status
  | .findings diagnostics =>
    let report := Report.build doc diagnostics
    ({ dispatcher with panel := dispatcher.panel.replace report.entries },
      .completed report.errorCount report.warningCount)
  | .empty => ({ dispatcher with panel := dispatcher.panel.add .emptyResult }, .failed)
  | .failure detail =>
    ({ dispatcher with panel := dispatcher.panel.replace [.hardFailure detail] }, .failed)

/-- Complete a run with the outcome of its call. Only the active token may write, and it is spent
    by this. -/
def complete (dispatcher : Dispatcher) (doc : Document) (invocation : Invocation)
    (outcome : Outcome) : Dispatcher × Status :=
  if dispatcher.active = some invocation.token then
    { dispatcher with active := none }.commit doc (outcome.conclusion invocation.target)
  else
    (dispatcher, .stale)

/-- A finished run: the state after it, how it ended, and the call that it made. -/
structure Run where
  dispatcher : Dispatcher
  status : Status
  call : Option Request
  deriving DecidableEq, Repr

/-- Run a document from beginning to end, with `answer` for the call that it needs. -/
def validate (dispatcher : Dispatcher) (document : Option Document) (answer : Request → Outcome) :
    Run :=
  match document with
  | none => { dispatcher, status := .skipped, call := none }
  | some doc =>
    match dispatcher.begin (some doc) with
    | (next, none) => { dispatcher := next, status := .skipped, call := none }
    | (next, some invocation) =>
      let (last, status) := next.complete doc invocation (answer invocation.request)
      { dispatcher := last, status, call := some invocation.request }

end Dispatcher

end PageCheck
