import PageCheck.Text.Character

/-! # Targets

Which of the two services, if any, judges a document. The choice is made from the document's
grammar scope, a list of words separated by dots such as `text.html.basic`.
-/

namespace PageCheck

/-- Where a document goes. -/
inductive Target where
  /-- No service judges such a document. -/
  | unsupported
  /-- The style sheet service. -/
  | css
  /-- The markup service. -/
  | html
  deriving DecidableEq, Repr

namespace Target

def name : Target → String
  | unsupported => "Unsupported"
  | css => "Css"
  | html => "Html"

/-- The stronger of two targets: markup over style sheets over neither. -/
def max : Target → Target → Target
  | html, _ => html
  | _, html => html
  | css, _ => css
  | _, css => css
  | unsupported, unsupported => unsupported

/-- The target that a single word of a scope stands for. Blanks around the word and the case of
    its ASCII letters do not matter; a word that merely contains one of the names does not count. -/
def ofWord (word : List Char) : Target :=
  let letters := (Text.trimChars word).map Char.toLower
  if letters = ['h', 't', 'm', 'l'] then html
  else if letters = ['c', 's', 's'] then css
  else unsupported

/-- The target of a grammar scope: the strongest of its words. -/
def ofGrammar (grammar : String) : Target :=
  ((grammar.toList.splitOn '.').map ofWord).foldl max unsupported

end Target

/-- The grammar scope guessed from a file extension, whatever the case of its ASCII letters. -/
def grammarOfExtension (extension : String) : String :=
  match extension.toLower with
  | "html" | "htm" | "xhtml" => "text.html.basic"
  | "php" => "text.html.php"
  | "css" => "source.css"
  | "scss" => "source.css.scss"
  | "less" => "source.css.less"
  | _ => "text.plain"

end PageCheck
