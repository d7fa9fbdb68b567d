import PageCheck.Dispatch.History
import PageCheck.FileTree.Open
import PageCheck.Settings.Basic

/-! # Batches

Documents run one after another through one dispatcher, each from its opening to its end. The first
one that cannot be opened ends the batch, and what has run before it stays as it is.
-/

namespace PageCheck

/-- The services over the course of a batch: what they are after the calls made so far, oldest
    first. So they may answer differently from call to call. -/
abbrev Course := List Request → Services

/-- What a batch comes to. -/
inductive Verdict where
  | clean
  /-- A run found errors or failed. -/
  | failing
  deriving DecidableEq, Repr

namespace Verdict

def exitCode : Verdict → Nat
  | clean => 0
  | failing => 1

def ofStatus (status : Status) : Verdict :=
  if status.isFailing then failing else clean

def worse : Verdict → Verdict → Verdict
  | clean, verdict => verdict
  | failing, _ => failing

theorem ofStatus_eq_failing_iff {status : Status} :
    ofStatus status = failing ↔ status.isFailing = true := by
  unfold ofStatus
  split <;> simp_all

theorem worse_eq_failing_iff {first second : Verdict} :
    first.worse second = failing ↔ first = failing ∨ second = failing := by
  cases first <;> simp [worse]

end Verdict

/-- What a batch hands over after each run. -/
structure Delivery where
  document : Document
  /-- The entries that the run left on the panel. -/
  entries : List Entry
  status : Status
  deriving DecidableEq, Repr

structure Batch where
  /-- One for each run, in order. -/
  deliveries : List Delivery
  /-- The calls that the services received, in order. -/
  calls : List Request
  /-- The worst of the runs, or the problem that ended the batch. -/
  verdict : Except Problem Verdict

namespace Batch

def ended (verdict : Except Problem Verdict) : Batch :=
  { deliveries := [], calls := [], verdict }

/-- A batch with a run in front of it. -/
def after (document : Document) (run : Dispatcher.Run) (rest : Batch) : Batch where
  deliveries := ⟨document, run.dispatcher.panel.entries, run.status⟩ :: rest.deliveries
  calls := run.call.toList ++ rest.calls
  verdict := rest.verdict.map (Verdict.ofStatus run.status).worse

end Batch

namespace FileTree

/-- Run the files through a dispatcher, when `calls` have been made before. -/
def batchFrom (tree : FileTree) (services : Course) (root : String) (grammar : Option String)
    (dispatcher : Dispatcher) (calls : List Request) : List String → Batch
  | [] => .ended (.ok .clean)
  | file :: rest =>
    match tree.openDocument file root grammar with
    | .error fault => .ended (.error (.unreadableDocument file fault))
    | .ok document =>
      let run := dispatcher.validate (some document) (services calls).answer
      .after document run
        (tree.batchFrom services root grammar run.dispatcher (calls ++ run.call.toList) rest)

/-- Run the files as one batch, with paths shown as below the given project root. -/
def batch (tree : FileTree) (services : Course) (root : String) (grammar : Option String)
    (options : StyleOptions) (files : List String) : Batch :=
  tree.batchFrom services root grammar (.new .empty options) [] files

end FileTree

end PageCheck
