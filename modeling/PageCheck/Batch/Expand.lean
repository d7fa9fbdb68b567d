import PageCheck.Glob.Walk
import PageCheck.Settings.Basic

/-! # Expanding path arguments

Each argument stands for a block of files: a literal path for that one file, even if it could be
read as a pattern, and a pattern for the files that match it. The blocks keep the order of the
arguments, and nothing is merged or removed.
-/

namespace PageCheck

namespace FileTree

/-- The files that one argument stands for. -/
def block (tree : FileTree) (argument : String) : Except Problem (List String) :=
  if tree.isFile argument then .ok [argument]
  else
    match Glob.Pattern.read argument with
    | .error fault => .error (.badPattern argument fault)
    | .ok pattern => .ok ((pattern.paths tree).filter tree.isFile)

/-- An argument stands for files only. -/
theorem isFile_of_mem_block {tree : FileTree} {argument file : String} {files : List String}
    (h : tree.block argument = .ok files) (mem : file ∈ files) : tree.isFile file = true := by
  unfold block at h
  split at h
  · cases h
    simp_all
  · split at h
    · cases h
    · cases h
      exact (List.mem_filter.1 mem).2

/-- A file stands for itself, also where its path could be read as a pattern. -/
theorem block_of_isFile {tree : FileTree} {file : String} (h : tree.isFile file = true) :
    tree.block file = .ok [file] := by
  simp [block, h]

/-- The files that a list of arguments stands for. Arguments that stand for no file at all are a
    problem; no arguments are not. -/
def expand (tree : FileTree) (arguments : List String) : Except Problem (List String) := do
  let files := (← arguments.mapM tree.block).flatten
  if files.isEmpty && !arguments.isEmpty then throw (.nothingMatched arguments)
  return files

end FileTree

end PageCheck
