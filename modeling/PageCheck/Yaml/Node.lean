import PageCheck.Yaml.Token

/-! # Nodes

A YAML document as a tree of nodes. A node with an anchor is also kept in a table, by a number of
its own; an alias holds that number, so it can stand for a node that contains it.
-/

namespace PageCheck.Yaml

inductive Node where
  /-- A text with its style, and the tag it was given. -/
  | scalar (tag : Option String) (style : ScalarStyle) (text : String)
  | sequence (items : List Node)
  | mapping (entries : List (Node × Node))
  /-- The node with the given number in the table of anchors. -/
  | alias (number : Nat)

def Node.empty : Node :=
  .scalar none .plain ""

/-- A document: its outermost node, and the nodes with anchors. -/
structure Document where
  root : Node
  anchored : List (Nat × Node)

def Document.resolve (document : Document) : Node → Node
  | .alias number => (document.anchored.lookup number).getD .empty
  | node => node

/-- The state in which tokens are joined to nodes. -/
structure Composer where
  tokens : List Token
  /-- What the handles of tags mean. -/
  handles : List (String × String) := [("!", "!"), ("!!", "tag:yaml.org,2002:")]
  /-- The numbers of the anchors met so far, the latest first. -/
  names : List (String × Nat) := []
  /-- The nodes with anchors that are complete. -/
  anchored : List (Nat × Node) := []

/-- A step of joining tokens, which fails where they do not fit together. -/
abbrev Compose := StateT Composer Option

namespace Compose

def peek : Compose (Option Token) :=
  return (← get).tokens.head?

def skip : Compose Unit :=
  modify fun state => { state with tokens := state.tokens.drop 1 }

/-- Pass over the next token if it is the given one, and say whether it was. -/
def accept (token : Token) : Compose Bool := do
  if (← peek) = some token then
    skip
    return true
  else return false

/-- Whether the next token is among the given ones, or there is none. -/
def atAny (tokens : List Token) : Compose Bool :=
  return (← peek).all tokens.contains

/-- What is written in front of a node. -/
structure Properties where
  anchor : Option String := none
  tag : Option (String × String) := none

/-- Take an anchor and a tag, in either order, each at most once. -/
def properties : Compose Properties := do
  match ← peek with
  | some (.anchor name) =>
    skip
    match ← peek with
    | some (.tag handle suffix) =>
      skip
      return { anchor := some name, tag := some (handle, suffix) }
    | _ => return { anchor := some name }
  | some (.tag handle suffix) =>
    skip
    match ← peek with
    | some (.anchor name) =>
      skip
      return { anchor := some name, tag := some (handle, suffix) }
    | _ => return { tag := some (handle, suffix) }
  | _ => return {}

/-- The full tag, which fails if its handle means nothing. -/
def fullTag : Option (String × String) → Compose (Option String)
  | none => return none
  | some ("", suffix) => return some suffix
  | some (handle, suffix) => do
    match (← get).handles.lookup handle with
    | some meaning => return some (meaning ++ suffix)
    | none => failure

def beginAnchor : Option String → Compose (Option Nat)
  | none => return none
  | some name => do
    let number := (← get).names.length
    modify fun state => { state with names := (name, number) :: state.names }
    return some number

def keep (number : Option Nat) (node : Node) : Compose Node := do
  match number with
  | some number =>
    modify fun state => { state with anchored := (number, node) :: state.anchored }
  | none => pure ()
  return node

mutual

/-- Take a node. Within brackets no block may begin; the value of a mapping may be a sequence
    whose dashes are not indented. Each call of these functions uses up a round. -/
def node (block indentless : Bool) : Nat → Compose Node
  | 0 => failure
  | rounds + 1 => do
    match ← peek with
    | some (.alias name) =>
      skip
      match (← get).names.lookup name with
      | some number => return .alias number
      | none => failure
    | _ =>
      let found ← properties
      let tag ← fullTag found.tag
      let number ← beginAnchor found.anchor
      match ← peek with
      | some .blockEntry =>
        if indentless then keep number (.sequence (← indentlessItems rounds))
        else bare found tag number
      | some (.scalar style text) =>
        skip
        let tag := if tag = some "!" then none else tag
        keep number (.scalar tag style text)
      | some .flowSequence =>
        skip
        keep number (.sequence (← flowItems true rounds))
      | some .flowMapping =>
        skip
        keep number (.mapping (← flowEntries true rounds))
      | some .blockSequence =>
        if block then
          skip
          keep number (.sequence (← blockItems rounds))
        else bare found tag number
      | some .blockMapping =>
        if block then
          skip
          keep number (.mapping (← blockEntries rounds))
        else bare found tag number
      | _ => bare found tag number
where
  /-- Properties without a node behind them stand for an empty text. -/
  bare (found : Properties) (tag : Option String) (number : Option Nat) : Compose Node :=
    if found.anchor.isNone && found.tag.isNone then failure
    else keep number (.scalar tag .plain "")

/-- Take a node, or an empty text in front of one of the given tokens. -/
def nodeUnless (stops : List Token) (block indentless : Bool) : Nat → Compose Node
  | 0 => failure
  | rounds + 1 => do
    if ← atAny stops then return .empty else node block indentless rounds

/-- Take the items of a sequence in a block of its own. -/
def blockItems : Nat → Compose (List Node)
  | 0 => failure
  | rounds + 1 => do
    if ← accept .blockEntry then
      let item ← nodeUnless [.blockEntry, .blockEnd] true false rounds
      return item :: (← blockItems rounds)
    else if ← accept .blockEnd then return []
    else failure

/-- Take the items of a sequence whose dashes are not indented. -/
def indentlessItems : Nat → Compose (List Node)
  | 0 => failure
  | rounds + 1 => do
    if ← accept .blockEntry then
      let item ← nodeUnless [.blockEntry, .key, .value, .blockEnd] true false rounds
      return item :: (← indentlessItems rounds)
    else return []

/-- Take the entries of a mapping in a block. -/
def blockEntries : Nat → Compose (List (Node × Node))
  | 0 => failure
  | rounds + 1 => do
    if ← accept .key then
      let stops := [Token.key, .value, .blockEnd]
      let key ← nodeUnless stops true true rounds
      let value ← if ← accept .value then nodeUnless stops true true rounds else pure .empty
      return (key, value) :: (← blockEntries rounds)
    else if ← accept .blockEnd then return []
    else failure

/-- Take the items of a sequence in brackets. An item may be a mapping of one entry. -/
def flowItems (first : Bool) : Nat → Compose (List Node)
  | 0 => failure
  | rounds + 1 => do
    if ← accept .flowSequenceEnd then return []
    else
      if !first then
        if !(← accept .flowEntry) then failure
      if ← accept .key then
        let key ← nodeUnless [.value, .flowEntry, .flowSequenceEnd] false false rounds
        let value ←
          if ← accept .value then nodeUnless [.flowEntry, .flowSequenceEnd] false false rounds
          else pure .empty
        return .mapping [(key, value)] :: (← flowItems false rounds)
      else if ← accept .flowSequenceEnd then return []
      else
        let item ← node false false rounds
        return item :: (← flowItems false rounds)

/-- Take the entries of a mapping in braces. An entry may be a key alone. -/
def flowEntries (first : Bool) : Nat → Compose (List (Node × Node))
  | 0 => failure
  | rounds + 1 => do
    if ← accept .flowMappingEnd then return []
    else
      if !first then
        if !(← accept .flowEntry) then failure
      if ← accept .key then
        let key ← nodeUnless [.value, .flowEntry, .flowMappingEnd] false false rounds
        let value ←
          if ← accept .value then nodeUnless [.flowEntry, .flowMappingEnd] false false rounds
          else pure .empty
        return (key, value) :: (← flowEntries false rounds)
      else if ← accept .flowMappingEnd then return []
      else
        let key ← node false false rounds
        return (key, .empty) :: (← flowEntries false rounds)

end

/-- Take the directives in front of a document: at most one version, which has to be known, and no
    handle twice. -/
def directives (version : Bool) (handles : List (String × String)) : Nat → Compose Bool
  | 0 => failure
  | rounds + 1 => do
    match ← peek with
    | some (.version major minor) =>
      if version || major ≠ 1 || (minor ≠ 1 && minor ≠ 2) then failure
      skip
      directives true handles rounds
    | some (.handle name meaning) =>
      if (handles.lookup name).isSome then failure
      skip
      directives version ((name, meaning) :: handles) rounds
    | _ =>
      modify fun state => { state with handles := handles ++ state.handles }
      return version || !handles.isEmpty

/-- Pass over the ends of documents. -/
def skipEnds : Compose Unit :=
  modify fun state =>
    { state with tokens := state.tokens.dropWhile (· = .documentEnd) }

/-- Take the only document; none if there is no document at all. -/
def document : Compose (Option Node) := do
  if (← peek).isNone then return none
  let rounds := 4 * (← get).tokens.length + 4
  let directed ← directives false [] rounds
  let explicit ← accept .documentStart
  if directed && !explicit then failure
  let stops := [Token.documentStart, .documentEnd]
  let root ← if explicit then nodeUnless stops true false rounds else node true false rounds
  skipEnds
  if (← peek).isSome then failure
  return some root

end Compose

/-- Read a text that holds one document at most: none if it is malformed, else the document, if
    there is one. -/
def read? (text : String) : Option (Option Document) := do
  let tokens ← tokens? text
  let (root, state) ← Compose.document.run { tokens }
  return root.map fun root => { root, anchored := state.anchored }

end PageCheck.Yaml
