import PageCheck.FileTree.Basic
import PageCheck.FileTree.Path

/-! # Following paths

The place that a path leads to, with the links on the way followed. A walk goes step by step until
it arrives, fails, or meets a link; the link's target then takes the link's place in the path.
A bounded number of links is followed, so every look-up ends.
-/

namespace PageCheck

/-- Why a path could not be followed, or what it leads to could not be read. -/
inductive Fault where
  | notFound
  | notDirectory
  | isDirectory
  | nameTooLong
  | tooManyLinks
  /-- The path holds a character that no path may hold. -/
  | badPath
  /-- The content is no text. -/
  | notText
  deriving DecidableEq, Repr

def Fault.message : Fault → String
  | notFound => "No such file or directory (os error 2)"
  | notDirectory => "Not a directory (os error 20)"
  | isDirectory => "Is a directory (os error 21)"
  | nameTooLong => "File name too long (os error 36)"
  | tooManyLinks => "Too many levels of symbolic links (os error 40)"
  | badPath => "file name contained an unexpected NUL byte"
  | notText => "stream did not contain valid UTF-8"

namespace FileTree

/-- Where a walk without following links ends. -/
inductive Halt where
  | arrived (place : List String)
  /-- At a link in the directory `base`, with steps still to take behind it. -/
  | link (base : List String) (target : String) (rest : List String)
  | fault (fault : Fault)

/-- Walk from a place. A link at the very end is met only if `follow` holds. -/
def walk (tree : FileTree) (follow : Bool) (place : List String) : List String → Halt
  | [] => .arrived place
  | step :: rest =>
    match tree.node? place with
    | some (.directory _) =>
      if step = "." then tree.walk follow place rest
      else if step = ".." then tree.walk follow place.dropLast rest
      else if 255 < step.utf8ByteSize then .fault .nameTooLong
      else match tree.node? (place ++ [step]) with
        | none => .fault .notFound
        | some (.link target) =>
          if rest.isEmpty && !follow then .arrived (place ++ [step]) else .link place target rest
        | some _ => tree.walk follow (place ++ [step]) rest
    | _ => .fault .notDirectory

/-- The place where a path's target is looked up from: the top for an absolute one. -/
def origin (place : List String) (path : String) : List String :=
  if Path.isAbsolute path then [] else place

/-- The place that steps lead to, when at most `links` links may still be followed. -/
def resolve (tree : FileTree) (follow : Bool) (links : Nat) (place steps : List String) :
    Except Fault (List String) :=
  match tree.walk follow place steps with
  | .arrived last => .ok last
  | .fault fault => .error fault
  | .link base target rest =>
    match links with
    | 0 => .error .tooManyLinks
    | links + 1 => tree.resolve follow links (origin base target) (Path.steps target ++ rest)

/-- The number of links that one look-up follows. -/
def linkLimit : Nat := 40

def locate (tree : FileTree) (follow : Bool) (path : String) : Except Fault (List String) :=
  if path.toList.contains '\x00' then .error .badPath
  else if path = "" then .error .notFound
  else if 4096 ≤ path.utf8ByteSize then .error .nameTooLong
  else tree.resolve follow linkLimit (origin tree.here path) (Path.steps path)

/-- What a path leads to, with all links followed. -/
def lookup? (tree : FileTree) (path : String) : Option Node :=
  match tree.locate true path with
  | .ok place => tree.node? place
  | .error _ => none

/-- Whether a path leads to anything. -/
def has (tree : FileTree) (path : String) : Bool :=
  (tree.lookup? path).isSome

/-- Whether a path leads to anything or to a link that itself leads nowhere. -/
def hasEntry (tree : FileTree) (path : String) : Bool :=
  match tree.locate false path with
  | .ok _ => true
  | .error _ => false

def isFile (tree : FileTree) (path : String) : Bool :=
  match tree.lookup? path with
  | some (.file _) => true
  | _ => false

def isDirectory (tree : FileTree) (path : String) : Bool :=
  match tree.lookup? path with
  | some (.directory _) => true
  | _ => false

/-- The names in the directory that a path leads to. -/
def names (tree : FileTree) (path : String) : List String :=
  match tree.lookup? path with
  | some (.directory entries) => entries.map (·.1)
  | _ => []

/-- The absolute path, free of links, to what a path leads to. -/
def canonical? (tree : FileTree) (path : String) : Option String :=
  match tree.locate true path with
  | .ok place => some (Path.ofNames place)
  | .error _ => none

/-- The absolute path to what a path leads to, or the path itself if it leads nowhere. -/
def canonicalOr (tree : FileTree) (path : String) : String :=
  (tree.canonical? path).getD path

def readText (tree : FileTree) (path : String) : Except Fault String :=
  match tree.locate true path with
  | .error fault => .error fault
  | .ok place =>
    match tree.node? place with
    | some (.file content) =>
      match String.fromUTF8? content with
      | some text => .ok text
      | none => .error .notText
    | some (.directory _) => .error .isDirectory
    | _ => .error .notFound

end FileTree

end PageCheck
