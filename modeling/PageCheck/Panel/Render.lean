import PageCheck.Report.Entry
import PageCheck.Text.Styled

/-! # The panel as text

Each entry is one line, or two for a finding with a preview: a sign for its class, the place of a
finding, and the message. Colour changes nothing but colour: without styling the two forms agree.
-/

namespace PageCheck

inductive Styling where
  | plain
  | coloured
  deriving DecidableEq, Repr

namespace Styling

def paint (styling : Styling) (colour : Text.Colour) (text : String) : String :=
  match styling with
  | plain => text
  | coloured => colour.paint text

def embolden (styling : Styling) (text : String) : String :=
  match styling with
  | plain => text
  | coloured => Text.bold text

end Styling

namespace EntryClass

def sign : EntryClass → String
  | error => "✖"
  | warning => "▲"
  | success => "✔"
  | info => "◆"
  | plain => "⌕"

def colour : EntryClass → Text.Colour
  | error => .red
  | warning => .yellow
  | success => .green
  | info => .blue
  | plain => .brightBlack

/-- The sign of a class, in its colour. -/
def icon (style : EntryClass) (styling : Styling) : String :=
  styling.paint style.colour style.sign

end EntryClass

namespace Entry

/-- The place of a finding. A column without a line says nothing. -/
def place : Option UInt32 → Option UInt32 → String
  | some line, some column => toString line.toNat ++ ":" ++ toString column.toNat
  | some line, none => toString line.toNat
  | none, _ => "?"

/-- An entry as text, without a line end behind it. -/
def render (styling : Styling) : Entry → String
  | progress message => styling.paint .blue "⧗" ++ " " ++ message
  | plain message detail style =>
    let head := if style = .plain then styling.embolden message else message
    let tail := match detail with
      | some text => " — " ++ text
      | none => ""
    style.icon styling ++ " " ++ head ++ tail
  | finding line column message preview style =>
    let tail := if preview.isEmpty then "" else "\n    " ++ styling.paint .brightBlack preview
    style.icon styling ++ " " ++ styling.embolden (place line column) ++ " " ++ message ++ tail

end Entry

end PageCheck
