import PageCheck.Program

/-! # Running the program

The outermost layer. What a command line can reach of the file system is noted down as a file tree,
the program runs on that, and its transcript is printed.
-/

namespace PageCheck.Survey

/-- The place that an absolute path leads to, if there are no links in it. -/
def placeOf (path : String) : List String :=
  (Path.segments path).filter (!Path.isIdle ·)

/-- Note a directory, unless it has been noted before. -/
def noteDirectory (tree : FileTree) (place : List String) : FileTree :=
  match tree.node? place with
  | some (.directory _) => tree
  | _ => tree.put place (.directory [])

/-- Note what stands under a name in a directory, and what it leads to if it is a link. Returns also
    the place behind the name. Contents are left out. -/
def noteEntry (tree : FileTree) (place : List String) (name : String) :
    IO (FileTree × List String) := do
  let next := place ++ [name]
  let found ← (do
    let path := (← IO.FS.realPath (Path.ofNames place)) / name
    return (path, ← path.symlinkMetadata) : IO _).toBaseIO
  match found with
  | .error _ => return (tree, next)
  | .ok (path, data) =>
    match data.type with
    | .dir => return (noteDirectory tree next, next)
    | .file => return (tree.put next (.file .empty), next)
    | .other => return (tree, next)
    | .symlink =>
      match ← path.metadata.toBaseIO with
      | .error _ => return (tree.put next (.link (Path.ofNames next)), next)
      | .ok behind =>
        let target := (← IO.FS.realPath path).toString
        let last := placeOf target
        let tree := tree.put next (.link target)
        match behind.type with
        | .dir => return (noteDirectory tree last, last)
        | .file => return (tree.put last (.file .empty), last)
        | _ => return (tree, last)

/-- Note what stands on the way along a path. Returns also the place that it leads to. -/
def noteWay (tree : FileTree) (place : List String) : List String → IO (FileTree × List String)
  | [] => return (tree, place)
  | name :: rest => do
    if Path.isIdle name then noteWay tree place rest
    else if name = ".." then noteWay tree place.dropLast rest
    else
      let (tree, next) ← noteEntry tree place name
      noteWay tree next rest

/-- Note what stands below a directory, for so many levels. -/
def noteBelow (tree : FileTree) (place : List String) : Nat → IO FileTree
  | 0 => return tree
  | depth + 1 => do
    match ← (IO.FS.realPath (Path.ofNames place) >>= (·.readDir)).toBaseIO with
    | .error _ => return tree
    | .ok entries =>
      entries.foldlM (fun tree entry => do
        let (tree, next) ← noteEntry tree place entry.fileName
        noteBelow tree next depth) tree

/-- Whether a segment of a path may be a wildcard. -/
def isWild (segment : String) : Bool :=
  segment.toList.any "*?[".toList.contains

/-- Note what a path or a pattern may lead to. -/
def notePattern (tree : FileTree) (pattern : String) : IO FileTree := do
  let segments := Path.segments pattern
  let origin := FileTree.origin tree.here pattern
  let wild := segments.dropWhile (!isWild ·)
  let (tree, _) ← noteWay tree origin segments
  let (tree, place) ← noteWay tree origin (segments.takeWhile (!isWild ·))
  noteBelow tree place (if wild.contains "**" then FileTree.linkLimit else wild.length)

/-- Fill in the content of the file that a path leads to. -/
def fill (tree : FileTree) (path : String) : IO FileTree := do
  match tree.locate true path with
  | .error _ => return tree
  | .ok place =>
    match tree.node? place with
    | some (.file _) => return tree.put place (.file (← IO.FS.readBinFile (Path.ofNames place)))
    | _ => return tree

/-- Note the directories that may be the project root, and the settings of the one that is. -/
def noteSettings (tree : FileTree) (root : String) : IO FileTree := do
  let (tree, _) ← noteWay tree (FileTree.origin tree.here root) (Path.segments root)
  let start := tree.canonicalOr root
  let names := ".git" :: settingsFiles.map (·.1)
  let marks := (start :: Path.parents start).flatMap fun path => names.map (Path.join path)
  let tree ← marks.foldlM notePattern tree
  match tree.settingsFile? (tree.projectRoot start) with
  | some (path, _) => fill tree path
  | none => return tree

/-- The part of the file system that the `validate` command may read. -/
def survey (arguments : CommandLine.Arguments) : IO FileTree := do
  let here := placeOf (← IO.FS.realPath ".").toString
  let (tree, _) ← noteWay { FileTree.empty with here } [] here
  let tree ← noteSettings tree (arguments.repoRoot.getD ".")
  let tree ← arguments.paths.foldlM notePattern tree
  match tree.expand arguments.paths with
  | .ok files => files.foldlM fill tree
  | .error _ => return tree

/-- The part of the file system that a command line may read. -/
def surveyFor (arguments : List String) : IO FileTree :=
  match CommandLine.read arguments with
  | .command (.validate arguments) => survey arguments
  | _ => return .empty

/-- Run the program on a command line, without a network. -/
def runHere (arguments : List String) : IO UInt32 := do
  let tree ← surveyFor arguments
  let styling := if (← IO.getEnv "NO_COLOR").isNone then Styling.coloured else .plain
  let around : Surroundings := { tree, styling, services := Settings.offlineServices }
  let transcript := around.run arguments
  IO.print transcript.output
  IO.eprint transcript.messages
  return UInt32.ofNat transcript.exitCode

end PageCheck.Survey

def main (arguments : List String) : IO UInt32 :=
  PageCheck.Survey.runHere arguments
