/-! # TOML values

Values and tables, and the rules for filling tables. A table remembers how it came about, because
that decides what may still be added to it: a header may complete a table that was only implied by
the header of a table inside it, and dotted keys may extend a table that dotted keys have made.
-/

namespace PageCheck

namespace Toml

/-- How a table came about. -/
inductive Origin where
  /-- By a header of its own. -/
  | header
  /-- By the header of a table inside it. -/
  | implied
  /-- By dotted keys. -/
  | dotted
  /-- As an inline value, which is complete. -/
  | inline
  deriving DecidableEq, Repr

end Toml

inductive Toml where
  | text (value : String)
  | integer (value : Int)
  /-- A boolean, a float, or a date or time, of which only the form matters. -/
  | other
  | array (items : List Toml)
  | table (origin : Toml.Origin) (entries : List (String × Toml))
  /-- An array of tables, each with a header of its own. -/
  | tables (elements : List (List (String × Toml)))

namespace Toml

/-- The entries of a table, in the order in which they came about. -/
abbrev Entries := List (String × Toml)

def Entries.set (entries : Entries) (key : String) (value : Toml) : Entries :=
  entries.map fun (name, old) => if name = key then (name, value) else (name, old)

/-- Which tables a path may pass through. -/
inductive Passage where
  /-- The path of a header, which passes through every table that is not complete. -/
  | header
  /-- The dotted keys of an entry, which extend only tables without a header of their own. -/
  | keys
  deriving DecidableEq, Repr

/-- Whether a path may pass through a table of the given origin. -/
def Passage.admits : Passage → Origin → Bool
  | header, origin => origin ≠ .inline
  | keys, origin => origin = .implied || origin = .dotted

/-- The origin of a table that a path makes on its way. -/
def Passage.makes : Passage → Origin
  | header => .implied
  | keys => .dotted

/-- Change the table at the end of a path; none if the path cannot pass or the change fails. The
    path of a header passes through the last element of an array of tables. -/
def Entries.update? (passage : Passage) (change : Entries → Option Entries) (entries : Entries) :
    List String → Option Entries
  | [] => change entries
  | key :: rest =>
    match entries.lookup key with
    | none =>
      (Entries.update? passage change [] rest).map fun inner =>
        entries ++ [(key, table passage.makes inner)]
    | some (table origin inner) =>
      if passage.admits origin then
        (Entries.update? passage change inner rest).map fun changed =>
          entries.set key (table origin changed)
      else none
    | some (tables elements) =>
      match passage, elements.getLast? with
      | .header, some last =>
        (Entries.update? passage change last rest).map fun changed =>
          entries.set key (tables (elements.dropLast ++ [changed]))
      | _, _ => none
    | some _ => none

/-- Add an entry under a key that is not yet taken. -/
def Entries.add? (key : String) (value : Toml) (entries : Entries) : Option Entries :=
  if (entries.lookup key).isSome then none else some (entries ++ [(key, value)])

/-- Add an entry under dotted keys. -/
def Entries.addAt? (entries : Entries) (keys : List String) (value : Toml) : Option Entries :=
  match keys.getLast? with
  | none => none
  | some key => Entries.update? .keys (Entries.add? key value) entries keys.dropLast

def Entries.openTable? (entries : Entries) (keys : List String) : Option Entries :=
  match keys.getLast? with
  | none => none
  | some key =>
    let change (parent : Entries) : Option Entries :=
      match parent.lookup key with
      | none => some (parent ++ [(key, table .header [])])
      | some (table .implied inner) => some (parent.set key (table .header inner))
      | some _ => none
    Entries.update? .header change entries keys.dropLast

/-- Open one more element of an array of tables by its header. -/
def Entries.openElement? (entries : Entries) (keys : List String) : Option Entries :=
  match keys.getLast? with
  | none => none
  | some key =>
    let change (parent : Entries) : Option Entries :=
      match parent.lookup key with
      | none => some (parent ++ [(key, tables [[]])])
      | some (tables elements) => some (parent.set key (tables (elements ++ [[]])))
      | some _ => none
    Entries.update? .header change entries keys.dropLast

end Toml

end PageCheck
