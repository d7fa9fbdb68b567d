import Mathlib.Data.List.Forall2
import PageCheck.Proofs.Batch.Basic

/-! # The calls of a batch

Each opened file leads to one call at most, with its text as it stands in the file. So the texts
that a service receives are those of its files, in the order of the files, and the answers that it
gives go to these files in the same order.
-/

namespace PageCheck

/-- What the services answer to some calls, in their order, when `before` have been made before. -/
def Course.answers (services : Course) (before calls : List Request) : List Outcome :=
  calls.mapIdx fun place call => (services (before ++ calls.take place)).answer call

@[simp] theorem Course.answers_nil (services : Course) (before : List Request) :
    services.answers before [] = [] := rfl

section Pairing

variable {services : Course} {options : StyleOptions}

end Pairing

structure ReadFile where
  path : String
  text : String
  deriving DecidableEq, Repr

namespace ReadFile

variable (grammar : Option String) (options : StyleOptions) (file : ReadFile)

/-- The grammar scope of a file: the one that is given, or else the one that its extension has. -/
def scope : String :=
  grammar.getD (grammarOfExtension (Path.extension file.path))

def target : Target :=
  .ofGrammar (file.scope grammar)

def document (tree : FileTree) (root : String) : Document :=
  ⟨tree.displayPath file.path root, file.text, file.scope grammar⟩

end ReadFile

namespace FileTree

variable {tree : FileTree} {root : String} {grammar : Option String}

/-- The files before the first one that cannot be read. -/
def readable (tree : FileTree) : List String → List ReadFile
  | [] => []
  | file :: rest =>
    match tree.readText file with
    | .error _ => []
    | .ok text => ⟨file, text⟩ :: tree.readable rest

theorem openDocument_eq (file : String) :
    tree.openDocument file root grammar =
      (tree.readText file).map fun text => ReadFile.document grammar ⟨file, text⟩ tree root := by
  unfold openDocument
  cases tree.readText file <;> rfl

theorem opened_eq (files : List String) :
    tree.opened root grammar files =
      (tree.readable files).map fun file => file.document grammar tree root := by
  induction files with
  | nil => rfl
  | cons file rest ih =>
      rw [opened, readable, openDocument_eq]
      cases tree.readText file with
      | error fault => rfl
      | ok text => exact congrArg (List.cons _) ih

end FileTree

end PageCheck
