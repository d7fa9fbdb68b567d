import PageCheck.CommandLine.Basic

/-! # Help pages

The pages are laid out from tables of items. The short form sets an item and its text side by
side; the long form sets the text below the item.
-/

namespace PageCheck.CommandLine

def programName : String := "w3c-validate"

def versionNumber : String := "0.1.0"

def bannerText : String :=
  programName ++ " " ++ versionNumber ++ "\n"

/-- A line of a help page: what can be written, and what it means. -/
structure Item where
  label : String
  short : String
  /-- The text in the long form. -/
  long : String := short

/-- Lines, each with a line end. -/
def lines (texts : List String) : String :=
  String.join (texts.map (· ++ "\n"))

def blanks (count : Nat) : String :=
  String.ofList (List.replicate count ' ')

/-- Items with their texts side by side, in a column as wide as the widest item. -/
def columns (items : List Item) : List String :=
  let width := (items.map (·.label.length)).foldl max 0
  items.map fun item =>
    "  " ++ item.label ++ blanks (width - item.label.length) ++ "  " ++ item.short

/-- Items with their texts below them. -/
def stacked (items : List Item) : List String :=
  List.intercalate [""] (items.map fun item => ["  " ++ item.label, blanks 10 ++ item.long])

/-- The items of a section, in the given form. -/
def layOut (long : Bool) (items : List Item) : List String :=
  if long then stacked items else columns items

/-- A section of a page, with an empty line in front. -/
def sectionLines (title : String) (body : List String) : List String :=
  if body.isEmpty then [] else ["", title ++ ":"] ++ body

def OptionName.placeholder (name : OptionName) : String :=
  String.ofList (name.text.toList.map fun c => if c = '-' then '_' else c.toUpper)

def OptionName.meaning : OptionName → String
  | repoRoot => "Project root used for config discovery (default: current dir)"
  | grammar => "Grammar scope override, e.g. text.html.basic or source.css"
  | profile => "CSS profile forwarded to the validator (default: css3)"
  | media => "CSS media forwarded to the validator (default: all)"
  | reportType => "CSS report type: all|most important|no warnings|default"
  | output => "Output mode: human|json (default: human)"

/-- The item of an option. Its spelling is set in as far as behind a letter. -/
def OptionName.item (name : OptionName) : Item where
  label := "    --" ++ name.text ++ " <" ++ name.placeholder ++ ">"
  short := name.meaning

def helpItem : Item where
  label := "-h, --help"
  short := "Print help (see more with '--help')"
  long := "Print help (see a summary with '-h')"

def versionItem : Item where
  label := "-V, --version"
  short := "Print version"

def commandItems : List Item :=
  [{ label := "version", short := "Show version" },
    { label := "validate", short := "Validate documents" },
    { label := "help", short := "Print this message or the help of the given subcommand(s)" }]

/-- What a page opens with. -/
def Topic.about (long : Bool) : Topic → List String
  | program =>
    if long then
      [programName ++ " — send HTML or CSS documents to the W3C validators and print a counted, " ++
          "line-anchored report.",
        "", "Configuration precedence: CLI > w3c-validation.toml > defaults."]
    else ["Validate HTML and CSS against the W3C services"]
  | version =>
    if long then ["Print the current " ++ programName ++ " version."] else ["Show version"]
  | validate =>
    if long then
      ["Validate each matched file in turn. HTML-family files go to the Nu HTML checker, " ++
        "CSS-family files to the CSS validator; other files are skipped."]
    else ["Validate documents"]
  | help => ["Print this message or the help of the given subcommand(s)"]

/-- What follows the program's name on the line of usage. -/
def Topic.usage : Topic → String
  | program => "<COMMAND>"
  | version => "version"
  | validate => "validate [OPTIONS] [PATHS]..."
  | help => "help [COMMAND]..."

def Topic.options : Topic → List Item
  | program => [helpItem, versionItem]
  | version => [helpItem]
  | validate => OptionName.all.map OptionName.item ++ [helpItem]
  | help => []

def Topic.positionals : Topic → List Item
  | validate => [{ label := "[PATHS]...", short := "Files or glob patterns to validate" }]
  | help => [{ label := "[COMMAND]...", short := "Print help for the subcommand(s)" }]
  | program | version => []

/-- The examples of a page. -/
def Topic.examples : Topic → List String
  | program =>
    ["validate index.html", "validate 'site/**/*.css' --report-type all",
      "validate page.php --grammar text.html.php --output json"]
  | validate =>
    ["validate index.html about.html", "validate 'css/*.css' --profile css21 --media screen"]
  | version | help => []

/-- A help page. The page on help has only a short form. -/
def Topic.page (topic : Topic) (long : Bool) : String :=
  let long := long && topic ≠ help
  lines <|
    topic.about long ++ ["", "Usage: " ++ programName ++ " " ++ topic.usage] ++
    sectionLines "Commands" (if topic = program then columns commandItems else []) ++
    sectionLines "Arguments" (layOut long topic.positionals) ++
    sectionLines "Options" (layOut long topic.options) ++
    sectionLines "Examples" (topic.examples.map fun call => "  " ++ programName ++ " " ++ call)

/-- What is wrong with a command line. -/
def Misuse.meaning : Misuse → String
  | unknownArgument => "unexpected argument"
  | unknownCommand => "unrecognized subcommand"
  | missingValue => "an option lacks its value"
  | repeatedOption => "an option is given more than once"
  | unneededValue => "a flag takes no value"

/-- What is wrong with a command line, with a hint where to look. -/
def Misuse.text (misuse : Misuse) : String :=
  lines
    ["error: " ++ misuse.meaning, "", "Usage: " ++ programName ++ " " ++ Topic.program.usage, "",
      "For more information, try '--help'."]

end PageCheck.CommandLine
