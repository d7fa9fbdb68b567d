/-! # Commands

What a command line can ask for, and how it can be wrong.
-/

namespace PageCheck.CommandLine

/-- The options of the `validate` command. Each takes one value. -/
inductive OptionName where
  | repoRoot
  | grammar
  | profile
  | media
  | reportType
  | output
  deriving DecidableEq, Repr

namespace OptionName

/-- All options, in the order in which the help lists them. -/
def all : List OptionName :=
  [repoRoot, grammar, profile, media, reportType, output]

/-- The spelling of an option, without its dashes. -/
def text : OptionName → String
  | repoRoot => "repo-root"
  | grammar => "grammar"
  | profile => "profile"
  | media => "media"
  | reportType => "report-type"
  | output => "output"

def ofText? (spelling : String) : Option OptionName :=
  all.find? (·.text = spelling)

/-- Each option is found under its own spelling. -/
theorem ofText?_text (name : OptionName) : ofText? name.text = some name := by
  cases name <;> decide

end OptionName

/-- The arguments of the `validate` command: paths in their order, and options as far as given. -/
structure Arguments where
  paths : List String := []
  repoRoot : Option String := none
  grammar : Option String := none
  profile : Option String := none
  media : Option String := none
  reportType : Option String := none
  output : Option String := none
  deriving DecidableEq, Repr

namespace Arguments

def get (arguments : Arguments) : OptionName → Option String
  | .repoRoot => arguments.repoRoot
  | .grammar => arguments.grammar
  | .profile => arguments.profile
  | .media => arguments.media
  | .reportType => arguments.reportType
  | .output => arguments.output

def set (arguments : Arguments) (name : OptionName) (value : String) : Arguments :=
  match name with
  | .repoRoot => { arguments with repoRoot := some value }
  | .grammar => { arguments with grammar := some value }
  | .profile => { arguments with profile := some value }
  | .media => { arguments with media := some value }
  | .reportType => { arguments with reportType := some value }
  | .output => { arguments with output := some value }

def addPaths (arguments : Arguments) (paths : List String) : Arguments :=
  { arguments with paths := arguments.paths ++ paths }

@[simp] theorem get_set_self (arguments : Arguments) (name : OptionName) (value : String) :
    (arguments.set name value).get name = some value := by
  cases name <;> rfl

theorem get_set_of_ne (arguments : Arguments) {name other : OptionName} (h : other ≠ name)
    (value : String) : (arguments.set name value).get other = arguments.get other := by
  cases name <;> cases other <;> first | rfl | exact absurd rfl h

@[simp] theorem paths_set (arguments : Arguments) (name : OptionName) (value : String) :
    (arguments.set name value).paths = arguments.paths := by
  cases name <;> rfl

@[simp] theorem get_addPaths (arguments : Arguments) (paths : List String) (name : OptionName) :
    (arguments.addPaths paths).get name = arguments.get name := by
  cases name <;> rfl

@[simp] theorem paths_addPaths (arguments : Arguments) (paths : List String) :
    (arguments.addPaths paths).paths = arguments.paths ++ paths := rfl

/-- Arguments are their paths and the values of their options. -/
theorem ext_get {left right : Arguments} (paths : left.paths = right.paths)
    (values : ∀ name, left.get name = right.get name) : left = right := by
  have repoRoot := values .repoRoot
  have grammar := values .grammar
  have profile := values .profile
  have media := values .media
  have reportType := values .reportType
  have output := values .output
  cases left
  cases right
  simp_all [get]

end Arguments

inductive Command where
  | version
  | validate (arguments : Arguments)
  deriving DecidableEq, Repr

/-- What a help page is about. -/
inductive Topic where
  | program
  | version
  | validate
  | help
  deriving DecidableEq, Repr

/-- How a command line can be wrong. -/
inductive Misuse where
  | unknownArgument
  | unknownCommand
  | missingValue
  | repeatedOption
  /-- A flag is given a value. -/
  | unneededValue
  deriving DecidableEq, Repr

/-- What a command line asks for. -/
inductive Reading where
  | command (command : Command)
  /-- A help page, in its long or its short form. -/
  | help (topic : Topic) (long : Bool)
  /-- Nothing is asked for, so the short help page is shown as a reminder. -/
  | nothing
  /-- The program's name and version. -/
  | banner
  | misuse (misuse : Misuse)
  deriving DecidableEq, Repr

end PageCheck.CommandLine
