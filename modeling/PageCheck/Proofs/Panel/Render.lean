import PageCheck.Panel.Render
import PageCheck.Proofs.Text.Styled

/-! # Colour and text

The coloured form of an entry is its plain form with a style around some of its parts. Deleting the
styling of the one gives the other, for entries of every kind and class, as long as no text that was
handed in brings an escape character of its own.
-/

namespace PageCheck

theorem isDigit_of_mem_toString {value : Nat} {c : Char} (member : c ∈ (toString value).toList) :
    c.isDigit = true := by
  rw [Nat.toString_eq_ofList_toDigits, String.toList_ofList] at member
  exact Nat.isDigit_of_mem_toDigits (by decide) (by decide) member

namespace Styling

variable (styling : Styling) {text : String} (free : Text.EscapeFree text)
include free

theorem shows_paint (colour : Text.Colour) : Text.Shows (styling.paint colour text) text := by
  cases styling with
  | plain => exact free.shows
  | coloured => exact Text.shows_paint colour free

theorem shows_embolden : Text.Shows (styling.embolden text) text := by
  cases styling with
  | plain => exact free.shows
  | coloured => exact Text.shows_bold free

end Styling

namespace EntryClass

theorem escapeFree_sign (style : EntryClass) : Text.EscapeFree style.sign := by
  cases style <;> decide

theorem shows_icon (style : EntryClass) (styling : Styling) :
    Text.Shows (style.icon styling) style.sign :=
  styling.shows_paint style.escapeFree_sign style.colour

end EntryClass

namespace Entry

/-- The texts of an entry, from wherever they come. -/
def texts : Entry → List String
  | progress message => [message]
  | plain message detail _ => message :: detail.toList
  | finding _ _ message preview _ => [message, preview]

/-- A place is written with digits, a colon, and a question mark. -/
theorem mem_place {line column : Option UInt32} {c : Char}
    (member : c ∈ (place line column).toList) : c.isDigit = true ∨ c = ':' ∨ c = '?' := by
  cases line with
  | none => exact .inr (.inr (by simpa [place] using member))
  | some line =>
      cases column with
      | none => exact .inl (isDigit_of_mem_toString member)
      | some column =>
          rw [place, String.toList_append, String.toList_append, List.mem_append,
            List.mem_append] at member
          rcases member with (digit | colon) | digit
          · exact .inl (isDigit_of_mem_toString digit)
          · exact .inr (.inl (by simpa using colon))
          · exact .inl (isDigit_of_mem_toString digit)

theorem escapeFree_place (line column : Option UInt32) : Text.EscapeFree (place line column) := by
  intro escape
  rcases mem_place escape with digit | colon | mark
  · exact absurd digit (by decide)
  · exact absurd colon (by decide)
  · exact absurd mark (by decide)

/-- The styled form of an entry shows the plain one. -/
theorem shows_render (styling : Styling) {entry : Entry}
    (free : ∀ text ∈ entry.texts, Text.EscapeFree text) :
    Text.Shows (entry.render styling) (entry.render .plain) := by
  have gap : Text.Shows " " " " := Text.EscapeFree.shows (by decide)
  cases entry with
  | progress message =>
      have glyph : Text.EscapeFree "⧗" := by decide
      have rest := (free message (by simp [texts])).shows
      exact ((styling.shows_paint glyph .blue).append gap).append rest
  | plain message detail style =>
      have message_free := free message (by simp [texts])
      have head : Text.Shows (if style = .plain then styling.embolden message else message)
          (if style = .plain then Styling.plain.embolden message else message) := by
        split
        · exact styling.shows_embolden message_free
        · exact message_free.shows
      have front := ((style.shows_icon styling).append gap).append head
      cases detail with
      | none => exact front.append (Text.EscapeFree.shows (by decide))
      | some detail =>
          have dash : Text.Shows " — " " — " := Text.EscapeFree.shows (by decide)
          exact front.append (dash.append (free detail (by simp [texts])).shows)
  | finding line column message preview style =>
      have message_shows := (free message (by simp [texts])).shows
      have place_shows := styling.shows_embolden (escapeFree_place line column)
      have front := ((((style.shows_icon styling).append gap).append place_shows).append
        gap).append message_shows
      have tail : Text.Shows
          (if preview.isEmpty then "" else "\n    " ++ styling.paint .brightBlack preview)
          (if preview.isEmpty then ""
            else "\n    " ++ Styling.plain.paint .brightBlack preview) := by
        split
        · exact Text.EscapeFree.shows (by decide)
        · have indent : Text.Shows "\n    " "\n    " := Text.EscapeFree.shows (by decide)
          exact indent.append (styling.shows_paint (free preview (by simp [texts])) .brightBlack)
      exact front.append tail

/-- Colour changes nothing but colour: what is left of the coloured form of an entry without its
    sequences is the plain form, in which there are none. -/
theorem render_coloured_stripped (entry : Entry)
    (free : ∀ text ∈ entry.texts, Text.EscapeFree text) :
    Text.strip (entry.render .coloured) = entry.render .plain ∧
      (∀ left, Text.Stripped (entry.render .coloured).toList left ↔
        left = (entry.render .plain).toList) ∧
      Text.EscapeFree (entry.render .plain) := by
  have shows := shows_render .coloured free
  refine ⟨shows.strip_eq, fun left => ?_, shows.escapeFree⟩
  rw [Text.stripped_iff, Text.stripped_iff.mp shows.stripped, eq_comm]

/-- Texts may hold what a sequence is made of, except for its first character. -/
theorem render_coloured_stripped_brackets :
    let entry := Entry.finding (some 3) none "[31m1m" "m[0m" .error
    (∀ text ∈ entry.texts, Text.EscapeFree text) ∧
      entry.render .coloured = "\x1b[31m✖\x1b[39m \x1b[1m3\x1b[0m [31m1m\n    " ++
        "\x1b[90mm[0m\x1b[39m" ∧
      Text.strip (entry.render .coloured) = "✖ 3 [31m1m\n    m[0m" := by
  intro entry
  have free : ∀ text ∈ entry.texts, Text.EscapeFree text := by decide
  exact ⟨free, by decide +kernel, (render_coloured_stripped entry free).1.trans (by decide +kernel)⟩

end Entry

end PageCheck
