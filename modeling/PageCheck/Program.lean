import PageCheck.Batch.Basic
import PageCheck.Batch.Expand
import PageCheck.CommandLine.Help
import PageCheck.CommandLine.Reader
import PageCheck.Panel.Json
import PageCheck.Panel.Render
import PageCheck.Service.Endpoint
import PageCheck.Settings.Basic

/-! # The program

A whole run, from the command line to what is written and the exit code. The settings are found
first, then the files, and only then does the first run begin; whatever goes wrong before that
leaves the standard output empty.
-/

namespace PageCheck

/-- What a run of the program finds around it. -/
structure Surroundings where
  tree : FileTree
  /-- Whether text for people is styled. -/
  styling : Styling
  /-- The services that settings lead to. -/
  services : Settings → Course

/-- What a run of the program leaves behind. -/
structure Transcript where
  /-- The text on the standard output. -/
  output : String := ""
  /-- The text on the error output. -/
  messages : String := ""
  exitCode : Nat := 0
  /-- The documents that were opened, in order. -/
  opened : List Document := []
  /-- The calls that the services received, in order. -/
  calls : List Request := []
  deriving DecidableEq, Repr

/-- Services without a network to reach them. -/
def Settings.offlineServices (settings : Settings) : Course := fun _ =>
  { markup := fun _ => .error (.offline settings.htmlUrl)
    style := fun _ _ => .error (.offline settings.cssUrl) }

def Delivery.printed (delivery : Delivery) (mode : OutputMode) (styling : Styling) : String :=
  match mode with
  | .json => (panelJson delivery.document.path delivery.entries delivery.status).pretty ++ "\n"
  | .human => String.join (delivery.entries.map fun entry => entry.render styling ++ "\n")

/-- A message on a line of its own, behind a word that says what it is. -/
def remark (styling : Styling) (colour : Text.Colour) (word message : String) : String :=
  styling.embolden (styling.paint colour (word ++ ":")) ++ " " ++ message ++ "\n"

def Problem.line (problem : Problem) (styling : Styling) : String :=
  remark styling .red "error" problem.message

/-- The settings that arguments override. -/
def CommandLine.Arguments.overrides (arguments : CommandLine.Arguments) : Overrides where
  repoRoot := arguments.repoRoot
  output := arguments.output
  profile := arguments.profile
  media := arguments.media
  reportType := arguments.reportType

namespace Surroundings

/-- The settings in effect and the files to validate. -/
def prepare (around : Surroundings) (arguments : CommandLine.Arguments) :
    Except Problem (Settings × List String) := do
  let settings ← around.tree.settings arguments.overrides
  let files ← around.tree.expand arguments.paths
  return (settings, files)

def print (around : Surroundings) (mode : OutputMode) (batch : Batch) : Transcript where
  output := String.join (batch.deliveries.map (·.printed mode around.styling))
  messages := match batch.verdict with
    | .error problem => problem.line around.styling
    | .ok _ => ""
  exitCode := match batch.verdict with
    | .error problem => problem.exitCode
    | .ok verdict => verdict.exitCode
  opened := batch.deliveries.map (·.document)
  calls := batch.calls

def validate (around : Surroundings) (arguments : CommandLine.Arguments) : Transcript :=
  match around.prepare arguments with
  | .error problem => { messages := problem.line around.styling, exitCode := problem.exitCode }
  | .ok (_, []) => { messages := remark around.styling .cyan "note" "No document to validate." }
  | .ok (settings, files) =>
    around.print settings.output
      (around.tree.batch (around.services settings) settings.root arguments.grammar settings.style
        files)

/-- Carry out what a command line asks for. -/
def run (around : Surroundings) (arguments : List String) : Transcript :=
  match CommandLine.read arguments with
  | .command .version => { output := CommandLine.versionNumber ++ "\n" }
  | .command (.validate arguments) => around.validate arguments
  | .help topic long => { output := topic.page long }
  | .banner => { output := CommandLine.bannerText }
  | .nothing => { messages := CommandLine.Topic.program.page false, exitCode := 2 }
  | .misuse misuse => { messages := misuse.text, exitCode := 2 }

end Surroundings

end PageCheck
