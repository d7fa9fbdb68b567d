import Mathlib.Algebra.BigOperators.Group.List.Basic
import Mathlib.Algebra.GroupWithZero.Nat
import PageCheck.Program
import PageCheck.Proofs.Panel.Render
import PageCheck.Proofs.Report.Preview
import PageCheck.Proofs.Text.Appending

/-! # The lines of a printed report

Each entry of a report is meant for one line of print, or for two if it shows a preview. Paths,
signs and places keep to that, and previews do because they are cut from a single line; what a
service says about a finding is printed as it comes, so that its line ends show through.
-/

namespace PageCheck

namespace Entry

/-- What an entry shows of the document; nothing, if it is no finding. -/
def preview : Entry → String
  | finding _ _ _ preview _ => preview
  | _ => ""

/-- The plain form of an entry without its preview. -/
def headline : Entry → String
  | finding line column message _ style =>
    style.sign ++ " " ++ place line column ++ " " ++ message
  | entry => entry.render .plain

/-- The lines that an entry is printed on: one, or two with the preview on the second. -/
inductive PrintedOn (entry : Entry) : List String → Prop where
  | one {line : String} (bare : entry.preview = "") (printed : entry.render .plain = line)
      (whole : Text.OnOneLine line) : PrintedOn entry [line]
  | two {first second : String} (previewed : entry.preview ≠ "")
      (printed : entry.render .plain = first ++ "\n" ++ second)
      (indented : second = "    " ++ entry.preview) (first_whole : Text.OnOneLine first)
      (second_whole : Text.OnOneLine second) : PrintedOn entry [first, second]

theorem render_plain_eq (entry : Entry) :
    entry.render .plain =
      entry.headline ++ if entry.preview = "" then "" else "\n" ++ ("    " ++ entry.preview) := by
  cases entry with
  | progress message => simp [preview, headline]
  | plain message detail style => simp [preview, headline]
  | finding line column message preview style =>
      have unstyled : style.icon .plain = style.sign := rfl
      by_cases bare : preview = ""
      · simp [render, Entry.preview, headline, bare, unstyled, Styling.embolden]
      · simp [render, Entry.preview, headline, bare, unstyled, Styling.paint, Styling.embolden,
          ← String.append_assoc]

theorem printedOn_iff {entry : Entry} :
    (∃ lines, entry.PrintedOn lines) ↔
      Text.OnOneLine entry.headline ∧ Text.OnOneLine entry.preview := by
  have parts := entry.render_plain_eq
  constructor
  · rintro ⟨lines, printed⟩
    cases printed with
    | one bare printed whole =>
        rw [if_pos bare, String.append_empty] at parts
        rw [← parts, printed, bare]
        exact ⟨whole, by decide⟩
    | two previewed printed indented first_whole second_whole =>
        rw [if_neg previewed, printed, indented, String.append_assoc] at parts
        rw [← (String.append_left_inj _).mp parts]
        exact ⟨first_whole, (Text.onOneLine_append_iff.mp (indented ▸ second_whole)).2⟩
  · rintro ⟨whole, preview_whole⟩
    by_cases bare : entry.preview = ""
    · rw [if_pos bare, String.append_empty] at parts
      exact ⟨_, .one bare parts whole⟩
    · rw [if_neg bare, ← String.append_assoc] at parts
      exact ⟨_, .two bare parts rfl whole
        (Text.onOneLine_append_iff.mpr ⟨by decide, preview_whole⟩)⟩

/-- In print an entry takes up its line, one for its preview, and those that its message adds. -/
theorem length_splitLines_render {entry : Entry} (whole : Text.OnOneLine entry.preview) :
    (Text.splitLines (entry.render .plain ++ "\n")).length =
      1 + (if entry.preview = "" then 0 else 1) + Text.furtherLines entry.headline := by
  rw [render_plain_eq]
  by_cases bare : entry.preview = ""
  · rw [if_pos bare, if_pos bare, String.append_empty, Text.length_splitLines_ended]
    omega
  · have second : Text.OnOneLine ("    " ++ entry.preview) :=
      Text.onOneLine_append_iff.mpr ⟨by decide, whole⟩
    rw [if_neg bare, if_neg bare, ← String.append_assoc, String.append_assoc,
      Text.splitLines_append (by simp), Text.splitLines_line second, List.length_append,
      Text.length_splitLines_ended, List.length_singleton]
    omega

theorem length_splitLines_join {entries : List Entry}
    (whole : ∀ entry ∈ entries, Text.OnOneLine entry.preview) :
    (Text.splitLines (String.join (entries.map fun entry => entry.render .plain ++ "\n"))).length =
      entries.length + entries.countP (·.preview ≠ "") +
        (entries.map fun entry => Text.furtherLines entry.headline).sum := by
  induction entries with
  | nil => rfl
  | cons entry rest ih =>
      obtain ⟨first, others⟩ := List.forall_mem_cons.mp whole
      rw [List.map_cons, String.join_cons, Text.splitLines_append (by simp), List.length_append,
        ih others, length_splitLines_render first, List.map_cons, List.sum_cons, List.length_cons,
        List.countP_cons]
      by_cases bare : entry.preview = ""
      · simp only [bare, if_pos]
        simp
        omega
      · simp [bare]
        omega

end Entry

theorem onOneLine_toString (value : Nat) : Text.OnOneLine (toString value) := by
  intro c member
  have digit := isDigit_of_mem_toString member
  constructor
  · rintro rfl
    exact absurd digit (by decide)
  · rintro rfl
    exact absurd digit (by decide)

theorem onOneLine_countOf (count : Nat) {noun : String} (whole : Text.OnOneLine noun) :
    Text.OnOneLine (countOf count noun) := by
  have gap : Text.OnOneLine " " := by decide
  have ending : Text.OnOneLine "s" := by decide
  unfold countOf
  split <;> simp only [Text.onOneLine_append_iff, onOneLine_toString, gap, whole, ending, true_and]

theorem onOneLine_summaryLine {path : String} (whole : Text.OnOneLine path)
    (errors warnings : Nat) : Text.OnOneLine (summaryLine path errors warnings) := by
  have dash : Text.OnOneLine " - " := by decide
  have comma : Text.OnOneLine ", " := by decide
  have counts : Text.OnOneLine (countOf errors "error") ∧
      Text.OnOneLine (countOf warnings "warning") :=
    ⟨onOneLine_countOf _ (by decide), onOneLine_countOf _ (by decide)⟩
  simp only [summaryLine, Text.onOneLine_append_iff, whole, dash, comma, counts, true_and]

/-- What stands before the message of a finding. -/
theorem Entry.onOneLine_front (style : EntryClass) (line column : Option UInt32) :
    Text.OnOneLine (style.sign ++ " " ++ place line column ++ " ") := by
  have sign : Text.OnOneLine style.sign := by cases style <;> decide
  have gap : Text.OnOneLine " " := by decide
  have place_whole : Text.OnOneLine (place line column) := by
    intro c member
    have printed := mem_place member
    constructor
    · rintro rfl
      exact absurd printed (by decide)
    · rintro rfl
      exact absurd printed (by decide)
  simp only [Text.onOneLine_append_iff, sign, gap, place_whole, true_and]

theorem Document.headline_entryOf (doc : Document) (diagnostic : Diagnostic) :
    (Text.OnOneLine (doc.entryOf diagnostic).headline ↔ Text.OnOneLine diagnostic.message) ∧
      Text.furtherLines (doc.entryOf diagnostic).headline =
        Text.furtherLines diagnostic.message := by
  have front := Entry.onOneLine_front (.ofSeverity diagnostic.severity) diagnostic.line
    diagnostic.column
  refine ⟨?_, Text.furtherLines_append front _⟩
  rw [entryOf, Entry.headline, Text.onOneLine_append_iff]
  exact and_iff_right front

namespace Report

variable {doc : Document} {diagnostics : List Diagnostic}

theorem onOneLine_preview {entry : Entry} (member : entry ∈ (build doc diagnostics).entries) :
    Text.OnOneLine entry.preview := by
  rw [entries_build, List.mem_cons, List.mem_append] at member
  rcases member with rfl | remarked | found
  · exact Text.LineEnds.Unbroken.nil
  · unfold remark at remarked
    split at remarked
    · rw [List.mem_singleton.mp remarked]
      decide
    · cases remarked
  · obtain ⟨diagnostic, -, rfl⟩ := List.mem_map.mp found
    exact (doc.previews_preview diagnostic.line).unbroken

/-- The summary of a report and its remark keep to a line. -/
theorem onOneLine_headline (path_whole : Text.OnOneLine doc.path) {entry : Entry}
    (member : entry ∈ Entry.plain (summaryLine doc.path (build doc diagnostics).errorCount
      (build doc diagnostics).warningCount) none .plain :: remark diagnostics) :
    Text.OnOneLine entry.headline := by
  rcases List.mem_cons.mp member with rfl | remarked
  · have sign : Text.OnOneLine (EntryClass.plain.sign ++ " ") := by decide
    have summary := onOneLine_summaryLine path_whole (build doc diagnostics).errorCount
      (build doc diagnostics).warningCount
    have printed := Text.onOneLine_append_iff.mpr ⟨sign, summary⟩
    simpa [Entry.headline, Entry.render, EntryClass.icon, Styling.paint, Styling.embolden]
      using printed
  · unfold remark at remarked
    split at remarked
    · rw [List.mem_singleton.mp remarked]
      decide
    · cases remarked

theorem exists_printedOn_iff (path_whole : Text.OnOneLine doc.path) :
    (∀ entry ∈ (build doc diagnostics).entries, ∃ lines, entry.PrintedOn lines) ↔
      ∀ diagnostic ∈ shown diagnostics, Text.OnOneLine diagnostic.message := by
  constructor
  · intro printed diagnostic member
    have listed : doc.entryOf diagnostic ∈ (build doc diagnostics).entries := by
      rw [entries_build, ← List.cons_append]
      exact List.mem_append_right _ (List.mem_map_of_mem member)
    have whole := (Entry.printedOn_iff.mp (printed _ listed)).1
    exact (doc.headline_entryOf diagnostic).1.mp whole
  · intro messages entry member
    refine Entry.printedOn_iff.mpr ⟨?_, onOneLine_preview member⟩
    rw [entries_build, ← List.cons_append] at member
    rcases List.mem_append.mp member with above | found
    · exact onOneLine_headline path_whole above
    · obtain ⟨diagnostic, listed, rfl⟩ := List.mem_map.mp found
      exact (doc.headline_entryOf diagnostic).1.mpr (messages diagnostic listed)

theorem sum_furtherLines (path_whole : Text.OnOneLine doc.path) :
    ((build doc diagnostics).entries.map fun entry => Text.furtherLines entry.headline).sum =
      ((shown diagnostics).map fun diagnostic => Text.furtherLines diagnostic.message).sum := by
  have above (entries : List Entry) (whole : ∀ entry ∈ entries, Text.OnOneLine entry.headline) :
      (entries.map fun entry => Text.furtherLines entry.headline).sum = 0 := by
    rw [List.sum_eq_zero]
    intro further member
    obtain ⟨entry, listed, rfl⟩ := List.mem_map.mp member
    exact (whole entry listed).furtherLines_eq
  rw [entries_build, ← List.cons_append, List.map_append, List.sum_append,
    above _ fun entry => onOneLine_headline path_whole, Nat.zero_add, List.map_map]
  simp only [Function.comp_def, (doc.headline_entryOf _).2]

/-- The entries of a report keep to their lines just if the messages that it shows keep to one. In
    print a report takes up a line for each entry and one for each preview that is not empty, and
    besides these the further lines of its messages. -/
theorem printed_lines (path_whole : Text.OnOneLine doc.path) (diagnostics : List Diagnostic) :
    let entries := (build doc diagnostics).entries
    ((∀ entry ∈ entries, ∃ lines, entry.PrintedOn lines) ↔
        ∀ diagnostic ∈ shown diagnostics, Text.OnOneLine diagnostic.message) ∧
      ∀ status, (Text.splitLines
          ((⟨doc, entries, status⟩ : Delivery).printed .human .plain)).length =
        entries.length + entries.countP (·.preview ≠ "") +
          ((shown diagnostics).map fun diagnostic =>
            Text.furtherLines diagnostic.message).sum := by
  intro entries
  refine ⟨exists_printedOn_iff path_whole, fun status => ?_⟩
  rw [← sum_furtherLines path_whole]
  exact Entry.length_splitLines_join fun entry => onOneLine_preview

/-- One of two findings has a preview. -/
theorem printed_lines_two_findings :
    let doc : Document := ⟨"a.html", "<p>\n <b>", "text.html.basic"⟩
    let diagnostics : List Diagnostic :=
      [⟨.error, some 2, some 1, "Stray tag"⟩, ⟨.warning, none, none, "No title"⟩]
    let entries := (build doc diagnostics).entries
    Text.OnOneLine doc.path ∧ (∀ entry ∈ entries, ∃ lines, entry.PrintedOn lines) ∧
      (Text.splitLines
        ((⟨doc, entries, .completed 1 1⟩ : Delivery).printed .human .plain)).length = 4 := by
  intro doc diagnostics entries
  have path_whole : Text.OnOneLine doc.path := by decide
  obtain ⟨kept, count⟩ := printed_lines path_whole diagnostics
  exact ⟨path_whole, kept.mpr (by decide), (count _).trans (by decide +kernel)⟩

/-- A message with a line end breaks its entry apart: what follows stands on a line of its own, as
    if it were a finding. -/
theorem printed_lines_broken_message :
    let doc : Document := ⟨"a.html", "<p>", "text.html.basic"⟩
    let diagnostics : List Diagnostic := [⟨.error, some 1, some 1, "Bad tag\n✖ 7:1 Forged"⟩]
    let entries := (build doc diagnostics).entries
    Text.OnOneLine doc.path ∧ ¬ (∀ entry ∈ entries, ∃ lines, entry.PrintedOn lines) ∧
      entries.length + entries.countP (·.preview ≠ "") = 3 ∧
      Text.splitLines ((⟨doc, entries, .completed 1 0⟩ : Delivery).printed .human .plain) =
        ["⌕ a.html - 1 error, 0 warnings", "✖ 1:1 Bad tag", "✖ 7:1 Forged", "    <p>"] := by
  intro doc diagnostics entries
  have path_whole : Text.OnOneLine doc.path := by decide
  refine ⟨path_whole, ?_, by decide +kernel, by decide +kernel⟩
  intro kept
  have whole := (exists_printedOn_iff path_whole).mp kept _ List.mem_cons_self
  exact absurd whole (by decide)

end Report

end PageCheck
