import PageCheck.FileTree.Resolve
import PageCheck.Glob.Pattern

/-! # Matching a file tree

The paths that match a pattern, in the order of their names at every level; a directory comes
before what is below it. Components without wildcards are looked up by name, so their spelling is
kept. Directories are entered through links.
-/

namespace PageCheck.Glob

structure Pattern where
  /-- Whether the pattern begins at the top of the tree. -/
  absolute : Bool
  /-- The patterns for the single names. -/
  components : List (List Token)
  directoriesOnly : Bool
  deriving DecidableEq, Repr

/-- The components of a pattern's text: its segments, without the empty one behind a slash at the
    end. -/
def componentTexts (text : List Char) : List (List Char) :=
  let segments := text.splitOn '/'
  if segments.getLast? = some [] then segments.dropLast else segments

/-- Read a pattern. The text is checked as a whole before it is cut into components. -/
def Pattern.read (text : String) : Except PatternFault Pattern := do
  let _ ← tokens text
  let absolute := Path.isAbsolute text
  let body := if absolute then text.toList.drop 1 else text.toList
  let components ← (componentTexts body).mapM (tokensFrom 0 none)
  return {
    absolute
    components := if body.isEmpty then [[]] else components
    directoriesOnly := text.toList.getLast? = some '/' }

/-- Whether a path is the directory from which relative paths are followed. -/
def isHere (path : String) : Bool :=
  Path.parts path = [.here]

/-- The path of an entry. Entries of the starting directory go by their bare names. -/
def entryPath (path name : String) : String :=
  if isHere path then name else Path.join path name

/-- A match for all components, unless it is no directory and has to be one. -/
def complete (tree : FileTree) (directoriesOnly : Bool) (path : String) : List String :=
  if directoriesOnly && !tree.isDirectory path then [] else [path]

/-- Match the name of a path against the first component, and go on with the others by `below`. -/
def matchName (tree : FileTree) (directoriesOnly : Bool)
    (below : String → List (List Token) → List String) (path : String) :
    List (List Token) → List String
  | [] => []
  | tokens :: others =>
    match Path.fileName? path with
    | none => []
    | some name =>
      if tokensMatch tokens name.toList then
        if others.isEmpty then complete tree directoriesOnly path else below path others
      else []

/-- Match an entry that has been met in a directory. A component for directories matches the entry
    in two ways: as one of the directories, whose own entries are then tried, and not at all. -/
def matchEntry (tree : FileTree) (directoriesOnly : Bool)
    (below : String → List (List Token) → List String) (path : String)
    (components : List (List Token)) : List String :=
  if components.head? = some [.directories] then
    let others := components.dropWhile (· = [.directories])
    let deeper := if tree.isDirectory path then below path ([.directories] :: others) else []
    if others.isEmpty then (if tree.isDirectory path then path :: deeper else [])
    else matchName tree directoriesOnly below path others ++ deeper
  else matchName tree directoriesOnly below path components

/-- The matches for components below a path. Each round goes one component or one directory
    further; `rounds` is how many there may be. -/
def matchesBelow (tree : FileTree) (directoriesOnly : Bool) :
    Nat → String → List (List Token) → List String
  | 0, _, _ => []
  | _ + 1, _, [] => []
  | rounds + 1, path, tokens :: others =>
    let below := matchesBelow tree directoriesOnly rounds
    let found (next : String) : List String :=
      if others.isEmpty then complete tree directoriesOnly next else below next others
    match literal? tokens with
    | some name =>
      let next := entryPath path name
      let present :=
        if name = "." ∨ name = ".." then tree.isDirectory path
        else tree.has next || tree.hasEntry next
      if present then found next else []
    | none =>
      if tree.isDirectory path then
        let special := if tokens.head? = some (.char '.') then
            ["..", "."].filter fun name => tokensMatch tokens name.toList
          else []
        let names := (tree.names path).mergeSort fun a b => a ≤ b
        special.flatMap (fun name => found (Path.join path name)) ++
          names.flatMap fun name =>
            matchEntry tree directoriesOnly below (entryPath path name) (tokens :: others)
      else []

/-- The paths of a tree that match a pattern. A path has at most `4096` bytes, and each round makes
    the path longer or uses up a component. -/
def Pattern.paths (pattern : Pattern) (tree : FileTree) : List String :=
  matchesBelow tree pattern.directoriesOnly (4100 + 2 * pattern.components.length)
    (if pattern.absolute then "/" else ".") pattern.components

end PageCheck.Glob
