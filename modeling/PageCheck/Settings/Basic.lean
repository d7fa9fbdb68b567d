import PageCheck.FileTree.Resolve
import PageCheck.Glob.Pattern
import PageCheck.Service.Options
import PageCheck.Settings.File

/-! # Settings

A settings file is looked for in the project root, by one of three names. Each of the settings in
effect is taken from the command line if given there, else from that file, else from the defaults,
independently of the others. A settings file that cannot be read is a problem even where all of it
would be overridden.

Problems are what can keep the program from validating at all; they are no findings, and have an
exit code of their own.
-/

namespace PageCheck

/-- A problem outside validation itself. -/
inductive Problem where
  | unreadableSettings (path : String) (fault : Fault)
  | malformedSettings (path reason : String)
  | badPattern (pattern : String) (fault : Glob.PatternFault)
  | nothingMatched (patterns : List String)
  | unreadableDocument (path : String) (fault : Fault)
  | unknownOutput (name : String)
  deriving DecidableEq, Repr

def Problem.message : Problem → String
  | unreadableSettings path fault =>
    "Failed to read configuration file at " ++ path ++ ": " ++ fault.message
  | malformedSettings path reason =>
    "Configuration at " ++ path ++ " could not be parsed: " ++ reason
  | badPattern pattern fault => "Invalid path pattern `" ++ pattern ++ "`: " ++ fault.message
  | nothingMatched patterns => "No files matched: " ++ String.intercalate ", " patterns
  | unreadableDocument path fault => "Failed to read document " ++ path ++ ": " ++ fault.message
  | unknownOutput name => "Unknown output mode `" ++ name ++ "` (expected human|json)"

def Problem.exitCode (_ : Problem) : Nat := 2

/-- How panels are printed. -/
inductive OutputMode where
  | human
  | json
  deriving DecidableEq, Repr

namespace OutputMode

def name : OutputMode → String
  | human => "human"
  | json => "json"

def ofName? (text : String) : Option OutputMode :=
  if text = "human" then some human
  else if text = "json" then some json
  else none

/-- A name stands for the output mode that goes by it, and for no other. -/
theorem ofName?_eq_some_iff {text : String} {mode : OutputMode} :
    ofName? text = some mode ↔ text = mode.name := by
  unfold ofName?
  split
  · cases mode <;> simp_all [name]
  · split <;> cases mode <;> simp_all [name]

end OutputMode

/-- What the command line sets. -/
structure Overrides where
  repoRoot : Option String := none
  output : Option String := none
  profile : Option String := none
  media : Option String := none
  reportType : Option String := none
  deriving DecidableEq, Repr

structure Settings where
  root : String
  /-- Whether the project root holds a settings file. -/
  fileFound : Bool
  output : OutputMode
  style : StyleOptions
  htmlUrl : String
  cssUrl : String
  /-- The number of seconds after which a call is given up. -/
  timeout : Option UInt64
  deriving DecidableEq, Repr

namespace Settings

def defaultHtmlUrl : String := "https://validator.w3.org/nu/"

def defaultCssUrl : String := "https://jigsaw.w3.org/css-validator/validator"

/-- The style options in effect. Words for a report level that name none select the normal one,
    also where they override others. -/
def styleOptions (overrides : Overrides) (file : SettingsFile) : StyleOptions :=
  let defaults : StyleOptions := {}
  let level := (overrides.reportType.or file.reportType).map ReportLevel.ofText
  { profile := (overrides.profile.or file.profile).getD defaults.profile
    medium := (overrides.media.or file.media).getD defaults.medium
    level := level.getD defaults.level }

/-- The settings in effect for a project root, from its settings file if it has one. -/
def merge (root : String) (overrides : Overrides) (found : Option SettingsFile) :
    Except Problem Settings :=
  let file := found.getD {}
  let output := (overrides.output.or file.output).getD OutputMode.human.name
  match OutputMode.ofName? output with
  | none => .error (.unknownOutput output)
  | some output => .ok
    { root
      fileFound := found.isSome
      output
      style := styleOptions overrides file
      htmlUrl := file.htmlUrl.getD defaultHtmlUrl
      cssUrl := file.cssUrl.getD defaultCssUrl
      timeout := file.timeout }

end Settings

inductive SettingsFormat where
  | toml
  | yaml
  deriving DecidableEq, Repr

/-- The names of settings files, in the order in which they are looked for. -/
def settingsFiles : List (String × SettingsFormat) :=
  [("w3c-validation.toml", .toml), ("w3c-validation.yaml", .yaml), ("w3c-validation.yml", .yaml)]

def SettingsFormat.read? : SettingsFormat → String → Option SettingsFile
  | toml, text => SettingsFile.ofToml? text
  | yaml, text => SettingsFile.ofYaml? text

namespace FileTree

def isProjectRoot (tree : FileTree) (path : String) : Bool :=
  settingsFiles.any (fun (name, _) => tree.has (Path.join path name)) ||
    tree.has (Path.join path ".git")

/-- The nearest directory, from a starting path upwards, that holds a settings file or a `.git`.
    Where there is none, it is the starting path itself. -/
def projectRoot (tree : FileTree) (start : String) : String :=
  ((start :: Path.parents start).find? tree.isProjectRoot).getD start

def settingsFile? (tree : FileTree) (root : String) : Option (String × SettingsFormat) :=
  (settingsFiles.map fun (name, format) => (Path.join root name, format)).find?
    fun (path, _) => tree.has path

/-- The content of the settings file of a project root, if it has one. The readers tell that a
    content is malformed, not where or why, so every malformed file is given the same reason. -/
def loadSettings (tree : FileTree) (root : String) : Except Problem (Option SettingsFile) :=
  match tree.settingsFile? root with
  | none => .ok none
  | some (path, format) =>
    match tree.readText path with
    | .error fault => .error (.unreadableSettings path fault)
    | .ok text =>
      match format.read? text with
      | none => .error (.malformedSettings path "malformed content")
      | some file => .ok (some file)

def settings (tree : FileTree) (overrides : Overrides) : Except Problem Settings := do
  let root := tree.projectRoot (tree.canonicalOr (overrides.repoRoot.getD "."))
  let found ← tree.loadSettings root
  Settings.merge root overrides found

end FileTree

end PageCheck
