/-! # File trees

A tree of directories, files and symbolic links, and the directory from which relative paths are
followed. A place in the tree is the list of names that lead to it from the top.
-/

namespace PageCheck

/-- What stands at a place of a file tree. -/
inductive Node where
  | file (content : ByteArray)
  /-- A symbolic link, with the path that it stands for. -/
  | link (target : String)
  | directory (entries : List (String × Node))

namespace Node

/-- The entry of a directory with the given name. -/
def child? (node : Node) (name : String) : Option Node :=
  match node with
  | directory entries => entries.lookup name
  | _ => none

/-- What stands at a place below a node. No link is followed. -/
def find? (node : Node) : List String → Option Node
  | [] => some node
  | name :: rest => (node.child? name).bind (·.find? rest)

/-- Put `new` at a place below a node. Directories are made on the way, in the place of whatever
    is no directory. -/
def put (new : Node) : List String → Node → Node
  | [], _ => new
  | name :: rest, node =>
    let entries := match node with
      | directory entries => entries
      | _ => []
    let inner := put new rest ((entries.lookup name).getD (directory []))
    directory (entries.filter (·.1 ≠ name) ++ [(name, inner)])

end Node

structure FileTree where
  /-- The entries of the top directory. -/
  entries : List (String × Node)
  /-- The place from which relative paths are followed. -/
  here : List String

namespace FileTree

def empty : FileTree :=
  ⟨[], []⟩

/-- What stands at a place. No link is followed. -/
def node? (tree : FileTree) (place : List String) : Option Node :=
  (Node.directory tree.entries).find? place

/-- Put a node at a place, and directories on the way to it. -/
def put (tree : FileTree) (place : List String) (node : Node) : FileTree :=
  match Node.put node place (.directory tree.entries) with
  | .directory entries => { tree with entries }
  | _ => tree

end FileTree

end PageCheck
