import PageCheck.Report.Basic

/-! # What a report holds

A report is its summary, one entry for each shown finding in their order, and the remark that there
are none. Its two counts are the numbers of its entries of the two classes that findings have.
-/

namespace PageCheck

namespace Entry

/-- Whether an entry is a single finding of the given class. -/
def isFindingOf (style : EntryClass) : Entry → Bool
  | finding _ _ _ _ own => own = style
  | _ => false

theorem style?_of_isFindingOf {entry : Entry} {style : EntryClass}
    (found : entry.isFindingOf style) : entry.style? = some style := by
  cases entry with
  | progress message => simp [isFindingOf] at found
  | plain message detail own => simp [isFindingOf] at found
  | finding line column message preview own => simpa [isFindingOf, style?] using found

end Entry

theorem EntryClass.ofSeverity_inj {first second : Severity} :
    ofSeverity first = ofSeverity second ↔ first = second := by
  cases first <;> cases second <;> simp [ofSeverity]

@[simp] theorem Document.isFinding_entryOf (doc : Document) (diagnostic : Diagnostic) :
    (doc.entryOf diagnostic).isFinding = true := rfl

@[simp] theorem Document.isFindingOf_entryOf (doc : Document) (diagnostic : Diagnostic)
    (severity : Severity) :
    (doc.entryOf diagnostic).isFindingOf (.ofSeverity severity) =
      decide (diagnostic.severity = severity) := by
  simp only [entryOf, Entry.isFindingOf, EntryClass.ofSeverity_inj]

namespace Report

variable (doc : Document) (diagnostics : List Diagnostic)

def remark : List Entry :=
  if (shown diagnostics).isEmpty then [.noErrors] else []

theorem entries_build :
    (build doc diagnostics).entries =
      .plain (summaryLine doc.path (build doc diagnostics).errorCount
        (build doc diagnostics).warningCount) none .plain ::
          (remark diagnostics ++ (shown diagnostics).map doc.entryOf) := rfl

variable {diagnostics}

theorem severity_of_mem_shown {diagnostic : Diagnostic} (member : diagnostic ∈ shown diagnostics) :
    diagnostic.severity = .error ∨ diagnostic.severity = .warning := by
  have severe : diagnostic.severity ≠ .info := by
    simpa [shown] using (List.mem_filter.mp member).2
  cases graded : diagnostic.severity with
  | info => exact absurd graded severe
  | warning => exact Or.inr rfl
  | error => exact Or.inl rfl

theorem build_congr {others : List Diagnostic} (same : shown diagnostics = shown others) :
    build doc diagnostics = build doc others := by
  simp only [build, same]

theorem filter_isFinding_build :
    (build doc diagnostics).entries.filter Entry.isFinding =
      (shown diagnostics).map doc.entryOf := by
  have kept : ((shown diagnostics).map doc.entryOf).filter Entry.isFinding =
      (shown diagnostics).map doc.entryOf := by
    rw [List.filter_eq_self]
    simp
  have dropped : (remark diagnostics).filter Entry.isFinding = [] := by
    unfold remark
    split <;> rfl
  rw [entries_build, List.filter_cons_of_neg (by simp [Entry.isFinding]), List.filter_append,
    dropped, kept, List.nil_append]

theorem countP_build (severity : Severity) :
    (build doc diagnostics).entries.countP (·.isFindingOf (.ofSeverity severity)) =
      (shown diagnostics).countP (·.severity = severity) := by
  have unmarked : (remark diagnostics).countP (·.isFindingOf (.ofSeverity severity)) = 0 := by
    unfold remark
    split <;> rfl
  rw [entries_build, List.countP_cons_of_neg (by simp [Entry.isFindingOf]), List.countP_append,
    unmarked, Nat.zero_add, List.countP_map]
  apply List.countP_congr
  simp

/-- The remark stands just where both counts are zero. -/
theorem remark_eq :
    remark diagnostics = if (build doc diagnostics).errorCount = 0 ∧
      (build doc diagnostics).warningCount = 0 then [.noErrors] else [] := by
  unfold remark
  cases listed : shown diagnostics with
  | nil => simp [build, listed]
  | cons first rest =>
      have counted : ¬ ((build doc diagnostics).errorCount = 0 ∧
          (build doc diagnostics).warningCount = 0) := by
        simp only [build, List.countP_eq_zero]
        rintro ⟨no_error, no_warning⟩
        have member : first ∈ shown diagnostics := by simp [listed]
        rcases severity_of_mem_shown member with error | warning
        · exact no_error first member (by simp [error])
        · exact no_warning first member (by simp [warning])
      simp [counted]

end Report

end PageCheck
