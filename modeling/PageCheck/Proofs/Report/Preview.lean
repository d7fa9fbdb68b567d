import Mathlib.Data.List.Forall2
import PageCheck.Proofs.Document.Lines
import PageCheck.Proofs.Report.Basic
import PageCheck.Proofs.Text.Blank

/-! # Previews

What a report shows of the text with each finding. A service counts lines from one and may name any
number; whatever it names, the preview is a part of the text that stays on one line.
-/

namespace PageCheck

namespace Document

/-- `preview` is what a finding anchored to `line` shows of the document's text. -/
structure Previews (doc : Document) (line : Option UInt32) (preview : String) : Prop where
  /-- A line of the text, counted from one, is shown without the blanks at its ends. -/
  of_line : ∀ number source, line = some number → 1 ≤ number.toNat →
    (Text.splitLines doc.text)[number.toNat - 1]? = some source → Text.IsTrimmed source preview
  /-- Nothing is shown where there is no such line. -/
  of_no_line : (∀ number, line = some number →
    number.toNat = 0 ∨ (Text.splitLines doc.text).length < number.toNat) → preview = ""
  /-- A preview stays on one line. -/
  unbroken : ∀ c ∈ preview.toList, c ≠ '\n' ∧ c ≠ '\r'
  front : ∀ c ∈ preview.toList.head?, ¬ Text.isBlank c
  back : ∀ c ∈ preview.toList.getLast?, ¬ Text.isBlank c
  /-- A preview stands in the text as it is. -/
  part : ∃ before after : String, doc.text = before ++ preview ++ after

variable (doc : Document)

theorem previews_empty {line : Option UInt32}
    (no_line : ∀ number, line = some number →
      number.toNat = 0 ∨ (Text.splitLines doc.text).length < number.toNat) :
    doc.Previews line "" where
  of_line := by
    intro number source anchored positive found
    have inside := (List.getElem?_eq_some_iff.mp found).1
    have outside := no_line number anchored
    omega
  of_no_line _ := rfl
  unbroken := by simp
  front := by simp
  back := by simp
  part := ⟨"", doc.text, by simp⟩

theorem previews_trim {number : UInt32} (positive : 1 ≤ number.toNat) {source : String}
    (found : doc.lineText (number.toNat - 1) = some source) :
    doc.Previews (some number) (Text.trim source) := by
  have split : (Text.splitLines doc.text)[number.toNat - 1]? = some source := by
    rw [← doc.lineText_eq, found]
  obtain ⟨lead, tail, parts, -⟩ := (Text.isTrimmed_trim source).within
  constructor
  case of_line =>
    intro other line same _ row
    cases same
    rw [split] at row
    cases row
    exact Text.isTrimmed_trim source
  case of_no_line =>
    intro no_line
    have inside := (List.getElem?_eq_some_iff.mp split).1
    have outside := no_line number rfl
    omega
  case unbroken =>
    intro c member
    have inside : c ∈ source.toList := by
      rw [parts, String.toList_append, String.toList_append]
      exact List.mem_append_left _ (List.mem_append_right _ member)
    exact Text.unbroken_of_mem_splitLines (List.mem_of_getElem? split) c inside
  case front => exact (Text.isTrimmed_trim source).front
  case back => exact (Text.isTrimmed_trim source).back
  case part =>
    obtain ⟨before, after, text⟩ := doc.exists_parts_of_lineText found
    refine ⟨before ++ lead, tail ++ after, ?_⟩
    rw [text]
    conv => lhs; rw [parts]
    simp only [String.append_assoc]

/-- The line that a service names decides between the two ways of showing it. -/
theorem previews_preview (line : Option UInt32) : doc.Previews line (doc.preview line) := by
  cases line with
  | none => exact doc.previews_empty (by simp)
  | some number =>
      by_cases zero : number = 0
      · rw [preview, if_pos zero]
        refine doc.previews_empty fun other same => Or.inl ?_
        rw [← Option.some.inj same, zero]
        rfl
      have positive : 1 ≤ number.toNat :=
        Nat.one_le_iff_ne_zero.mpr fun none => zero (UInt32.toNat_inj.mp none)
      rw [preview, if_neg zero]
      cases found : doc.lineText (number.toNat - 1) with
      | none =>
          refine doc.previews_empty fun other same => Or.inr ?_
          rw [lineText_eq, List.getElem?_eq_none_iff] at found
          rw [← Option.some.inj same]
          omega
      | some source => exact doc.previews_trim positive found

example : (⟨"a.html", "<p>\r \t<b>\u00a0\r\n", ""⟩ : Document).preview (some 2) = "<b>" := by
  decide +kernel

end Document

/-- Each finding that a report shows carries its diagnostic's anchor and text, and previews the
    line that the anchor names. -/
theorem Report.findings_previewed (doc : Document) (diagnostics : List Diagnostic) :
    List.Forall₂
      (fun diagnostic entry => ∃ preview, doc.Previews diagnostic.line preview ∧
        entry = .finding diagnostic.line diagnostic.column diagnostic.message preview
          (.ofSeverity diagnostic.severity))
      (shown diagnostics) ((build doc diagnostics).entries.filter Entry.isFinding) := by
  rw [filter_isFinding_build, List.forall₂_map_right_iff, List.forall₂_same]
  intro diagnostic _
  exact ⟨doc.preview diagnostic.line, doc.previews_preview diagnostic.line, rfl⟩

end PageCheck
