/-! # Paths

Paths as texts, taken apart without a look at any file tree. A path is cut at its slashes into
segments. An empty segment stands for nothing, and neither does a single dot, except at the
beginning of a relative path. Parents and joins keep the spelling of what they keep.
-/

namespace PageCheck.Path

/-- What a segment of a path stands for. -/
inductive Part where
  /-- The top of the tree. -/
  | root
  /-- The directory that has been reached. -/
  | here
  /-- The directory above the one that has been reached. -/
  | up
  /-- An entry of the directory that has been reached. -/
  | name (text : String)
  deriving DecidableEq, Repr

/-- The pieces of a path between its slashes. -/
def segments (path : String) : List String :=
  (path.toList.splitOn '/').map String.ofList

/-- Whether a segment that is not the first stands for nothing. -/
def isIdle (segment : String) : Bool :=
  segment = "" || segment = "."

/-- The part that a segment stands for. -/
def partOf (segment : String) : Part :=
  if segment = ".." then .up else if segment = "." then .here else .name segment

def isAbsolute (path : String) : Bool :=
  path.toList.head? = some '/'

def parts (path : String) : List Part :=
  match segments path with
  | [] => []
  | first :: rest =>
    let head := if isAbsolute path then [Part.root] else if first = "" then [] else [partOf first]
    head ++ (rest.filter (!isIdle ·)).map partOf

/-- Segments without the idle ones at their end. The first one always stays. -/
def trimSegments : List String → List String
  | [] => []
  | first :: rest => first :: (rest.reverse.dropWhile isIdle).reverse

/-- The path with the given segments; a single empty one is the top of the tree. -/
def ofSegments : List String → String
  | [""] => "/"
  | segments => String.intercalate "/" segments

theorem length_trimSegments_le (segments : List String) :
    (trimSegments segments).length ≤ segments.length := by
  cases segments with
  | nil => simp [trimSegments]
  | cons first rest =>
    have := (List.dropWhile_sublist (l := rest.reverse) isIdle).length_le
    simpa [trimSegments] using this

/-- The paths above the one with the given segments, nearest first. The top of the tree and the
    empty path have none; the empty path is above every relative one. -/
def parentsOf (kept : List String) : List String :=
  if _h : kept = [] ∨ kept = [""] then []
  else
    let next := trimSegments kept.dropLast
    ofSegments next :: parentsOf next
termination_by kept.length
decreasing_by
  have := length_trimSegments_le kept.dropLast
  have : kept.length ≠ 0 := fun e => _h (.inl (List.length_eq_zero_iff.1 e))
  simp only [List.length_dropLast] at *
  omega

/-- The paths above a path, nearest first. -/
def parents (path : String) : List String :=
  parentsOf (trimSegments (segments path))

/-- The path without its last part, if there is one. -/
def parent? (path : String) : Option String :=
  (parents path).head?

/-- The last part of a path, if it is the name of an entry. -/
def fileName? (path : String) : Option String :=
  match (parts path).getLast? with
  | some (.name text) => some text
  | _ => none

/-- What follows the last dot of a path's name; nothing for a name whose only dot comes first. -/
def extension (path : String) : String :=
  match fileName? path with
  | none => ""
  | some name =>
    let reversed := name.toList.reverse
    let stem := (reversed.dropWhile (· ≠ '.')).drop 1
    if stem.isEmpty then "" else String.ofList (reversed.takeWhile (· ≠ '.')).reverse

/-- A name looked up below a path. Below the empty path it stays as it is. -/
def join (path name : String) : String :=
  if isAbsolute name ∨ path = "" then name
  else if path.toList.getLast? = some '/' then path ++ name
  else path ++ "/" ++ name

/-- The path that leads to the given names from the top of the tree. -/
def ofNames (names : List String) : String :=
  "/" ++ String.intercalate "/" names

/-- The steps that a look-up takes along a path: its segments that are not empty, and one more
    that stays in place if a slash ends the path, so that what it ends in has to be a directory. -/
def steps (path : String) : List String :=
  (segments path).filter (· ≠ "") ++ if path.toList.getLast? = some '/' then ["."] else []

end PageCheck.Path
