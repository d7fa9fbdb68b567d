import PageCheck.Document
import PageCheck.FileTree.Resolve

/-! # Opening documents

A document read from a file tree. It is shown under the rest of its path below the project root;
a document elsewhere is shown under the path as it was given.
-/

namespace PageCheck

/-- The parts of a path below another: what is left when the other's parts are taken away. -/
def Path.below? : List Path.Part → List Path.Part → Option (List Path.Part)
  | path, [] => some path
  | [], _ :: _ => none
  | part :: path, other :: base => if part = other then below? path base else none

def Path.Part.text : Path.Part → String
  | root => "/"
  | here => "."
  | up => ".."
  | name text => text

namespace FileTree

/-- The path under which a document is shown. A root that is no absolute path, even after links
    are followed, shows the absolute path of the document. -/
def displayPath (tree : FileTree) (path root : String) : String :=
  let absolute := tree.canonicalOr path
  let base := tree.canonicalOr root
  if Path.isAbsolute absolute = Path.isAbsolute base then
    match Path.below? (Path.parts absolute) (Path.parts base) with
    | some rest => String.intercalate "/" (rest.map Path.Part.text)
    | none => path
  else absolute

/-- Read a document. The grammar scope is guessed from the extension unless one is given. -/
def openDocument (tree : FileTree) (path root : String) (grammar : Option String) :
    Except Fault Document :=
  match tree.readText path with
  | .error fault => .error fault
  | .ok text => .ok
    { path := tree.displayPath path root
      text
      grammar := grammar.getD (grammarOfExtension (Path.extension path)) }

end FileTree

end PageCheck
