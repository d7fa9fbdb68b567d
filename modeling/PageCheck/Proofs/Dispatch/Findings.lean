import PageCheck.Proofs.Dispatch.Basic
import PageCheck.Proofs.Report.Basic

/-! # From the answer to the panel

No finding is lost, doubled or moved on its way from a service's answer to the panel. The findings
on the panel are read off the answer directly: from the markup service those items whose kind is
reported, and from the style sheet service all items, the errors first.
-/

namespace PageCheck

namespace MarkupMessage

/-- The class under which an item is reported, by the kind that the service gives it. -/
def class? (item : MarkupMessage) : Option EntryClass :=
  if item.kind = "error" ∨ item.kind = "non-document-error" then some .error
  else if item.kind = "warning" then some .warning
  else none

/-- The finding that an item becomes in `doc`, if it is reported. -/
def finding? (doc : Document) (item : MarkupMessage) : Option Entry :=
  item.class?.map (.finding item.lastLine item.lastColumn (item.message.getD "")
    (doc.preview item.lastLine))

theorem class?_eq (item : MarkupMessage) :
    item.class? = if item.diagnostic.severity = .info then none
      else some (.ofSeverity item.diagnostic.severity) := by
  unfold class? diagnostic Severity.ofTag
  by_cases error : item.kind = "error" ∨ item.kind = "non-document-error"
  · rw [if_pos error, if_pos error]
    rfl
  · rw [if_neg error, if_neg error]
    by_cases warning : item.kind = "warning"
    · rw [if_pos warning, if_pos warning]
      rfl
    · rw [if_neg warning, if_neg warning]
      rfl

theorem class?_isSome (item : MarkupMessage) :
    item.class?.isSome = decide (item.diagnostic.severity ≠ .info) := by
  rw [class?_eq]
  split <;> simp [*]

theorem class?_eq_some_iff {item : MarkupMessage} {severity : Severity}
    (severe : severity ≠ .info) :
    item.class? = some (.ofSeverity severity) ↔ item.diagnostic.severity = severity := by
  rw [class?_eq]
  split
  · next info =>
      simp only [reduceCtorEq, info, false_iff]
      exact Ne.symm severe
  · rw [Option.some.injEq, EntryClass.ofSeverity_inj]

theorem finding?_eq (doc : Document) (item : MarkupMessage) :
    item.finding? doc = if item.diagnostic.severity = .info then none
      else some (doc.entryOf item.diagnostic) := by
  rw [finding?, class?_eq]
  split <;> rfl

end MarkupMessage

/-- The finding that an item of the style sheet service becomes in `doc`. -/
def StyleMessage.finding (doc : Document) (style : EntryClass) (item : StyleMessage) : Entry :=
  .finding item.line none (item.message.getD "") (doc.preview item.line) style

namespace Report

/-- The shown diagnostics of a markup answer are those of its reported items. -/
theorem shown_markupDiagnostics (items : List MarkupMessage) :
    shown (markupDiagnostics items) =
      markupDiagnostics (items.filter (·.class?.isSome)) := by
  simp only [shown, markupDiagnostics, List.filter_map]
  congr 1
  apply List.filter_congr
  intro item _
  exact item.class?_isSome.symm

theorem findings_markup (doc : Document) (items : List MarkupMessage) :
    (build doc (markupDiagnostics items)).entries.filter Entry.isFinding =
      items.filterMap (·.finding? doc) := by
  rw [filter_isFinding_build]
  induction items with
  | nil => rfl
  | cons item rest ih =>
      simp only [shown, markupDiagnostics, List.map_cons] at ih ⊢
      by_cases info : item.diagnostic.severity = .info
      · have unreported : item.finding? doc = none := by rw [item.finding?_eq, if_pos info]
        rw [List.filter_cons_of_neg (by simp [info]), List.filterMap_cons_none unreported, ih]
      · have reported : item.finding? doc = some (doc.entryOf item.diagnostic) := by
          rw [item.finding?_eq, if_neg info]
        rw [List.filter_cons_of_pos (by simp [info]), List.filterMap_cons_some reported,
          List.map_cons, ih]

theorem countP_markup (items : List MarkupMessage) (severity : Severity)
    (severe : severity ≠ .info) :
    (shown (markupDiagnostics items)).countP (·.severity = severity) =
      items.countP (·.class? = some (.ofSeverity severity)) := by
  rw [shown_markupDiagnostics, markupDiagnostics, List.countP_map, List.countP_filter]
  apply List.countP_congr
  intro item _
  simp only [Function.comp, Bool.and_eq_true, decide_eq_true_eq, item.class?_isSome,
    MarkupMessage.class?_eq_some_iff severe]
  constructor
  · exact fun both => both.1
  · rintro rfl
    exact ⟨rfl, severe⟩

/-- Nothing that the style sheet service finds is left out. -/
theorem shown_styleDiagnostics (answer : StyleAnswer) :
    shown answer.diagnostics = answer.diagnostics := by
  rw [shown, List.filter_eq_self]
  intro diagnostic member
  rcases List.mem_append.mp member with error | warning
  · obtain ⟨item, -, rfl⟩ := List.mem_map.mp error
    rfl
  · obtain ⟨item, -, rfl⟩ := List.mem_map.mp warning
    rfl

theorem findings_style (doc : Document) (answer : StyleAnswer) :
    (build doc answer.diagnostics).entries.filter Entry.isFinding =
      (answer.errors.getD []).map (·.finding doc .error) ++
        (answer.warnings.getD []).map (·.finding doc .warning) := by
  rw [filter_isFinding_build, shown_styleDiagnostics, StyleAnswer.diagnostics, List.map_append,
    List.map_map, List.map_map]
  rfl

theorem status_style (doc : Document) (answer : StyleAnswer) :
    (Conclusion.findings answer.diagnostics).status doc =
      .completed (answer.errors.getD []).length (answer.warnings.getD []).length := by
  have all_of (items : List StyleMessage) (severity : Severity) :
      (items.map (StyleMessage.diagnostic severity)).countP (·.severity = severity) =
        items.length := by
    rw [List.countP_map, List.countP_eq_length]
    simp [StyleMessage.diagnostic]
  have none_of (items : List StyleMessage) {own severity : Severity} (other : own ≠ severity) :
      (items.map (StyleMessage.diagnostic own)).countP (·.severity = severity) = 0 := by
    rw [List.countP_map, List.countP_eq_zero]
    simp [StyleMessage.diagnostic, other]
  simp only [Conclusion.status, build, shown_styleDiagnostics]
  simp only [StyleAnswer.diagnostics, List.countP_append]
  rw [all_of, none_of _ (by simp), none_of _ (by simp), all_of, Nat.add_zero, Nat.zero_add]

end Report

namespace Dispatcher

/-- A run that is completed in time shows exactly the findings of the answer, in its order and with
    its positions and texts, and counts them. Markup items of other kinds have no influence,
    wherever and however many of them stand between the reported ones. -/
theorem complete_shows_findings {dispatcher : Dispatcher} {invocation : Invocation}
    (active : dispatcher.active = some invocation.token) (doc : Document) :
    (invocation.target = .html → ∀ items : List MarkupMessage,
      let run := dispatcher.complete doc invocation (.markup (.ok ⟨some items⟩))
      run.1.panel.entries.filter Entry.isFinding = items.filterMap (·.finding? doc) ∧
        run.2 = .completed (items.countP (·.class? = some .error))
          (items.countP (·.class? = some .warning)) ∧
        ∀ others : List MarkupMessage,
          others.filter (·.class?.isSome) = items.filter (·.class?.isSome) →
            dispatcher.complete doc invocation (.markup (.ok ⟨some others⟩)) = run) ∧
    (invocation.target = .css → ∀ errors warnings : Option (List StyleMessage),
      let run := dispatcher.complete doc invocation (.style (.ok ⟨errors, warnings⟩))
      run.1.panel.entries.filter Entry.isFinding =
          (errors.getD []).map (·.finding doc .error) ++
            (warnings.getD []).map (·.finding doc .warning) ∧
        run.2 = .completed (errors.getD []).length (warnings.getD []).length) := by
  constructor
  · intro html items
    have concluded (items : List MarkupMessage) :
        dispatcher.complete doc invocation (.markup (.ok ⟨some items⟩)) =
          (dispatcher.settled doc (.findings (markupDiagnostics items)),
            (Conclusion.findings (markupDiagnostics items)).status doc) := by
      rw [complete_of_active active, html]
      rfl
    simp only [concluded]
    refine ⟨Report.findings_markup doc items, ?_, ?_⟩
    · rw [Conclusion.status, Status.completed.injEq]
      exact ⟨Report.countP_markup items .error (by simp),
        Report.countP_markup items .warning (by simp)⟩
    · intro others same
      have reported : Report.shown (markupDiagnostics others) =
          Report.shown (markupDiagnostics items) := by
        rw [Report.shown_markupDiagnostics, same, ← Report.shown_markupDiagnostics]
      have report := Report.build_congr doc reported
      simp only [settled, Conclusion.entries, Conclusion.status, report]
  · intro css errors warnings
    have concluded : dispatcher.complete doc invocation (.style (.ok ⟨errors, warnings⟩)) =
        (dispatcher.settled doc (.findings (StyleAnswer.diagnostics ⟨errors, warnings⟩)),
          (Conclusion.findings (StyleAnswer.diagnostics ⟨errors, warnings⟩)).status doc) := by
      rw [complete_of_active active, css]
      rfl
    simp only [concluded]
    exact ⟨Report.findings_style doc ⟨errors, warnings⟩, Report.status_style doc _⟩

/-- One pending run, completed once by each service: the token alone decides that it may write. -/
theorem complete_shows_findings_stray_tag :
    let page : Document := ⟨"index.html", "<p>\n </b> \n", "text.html.basic"⟩
    let pending := (new .empty {}).started page
    let html : Invocation := ⟨⟨1⟩, .html, .markup page.text⟩
    let css : Invocation := { html with target := .css }
    let items : List MarkupMessage :=
      [{ kind := "info", message := some "Trailing slash" },
        { kind := "error", lastLine := some 2, lastColumn := some 5, message := some "Stray tag" },
        { kind := "warning", lastLine := some 9 }]
    pending.active = some html.token ∧ pending.active = some css.token ∧
      (pending.complete page html (.markup (.ok ⟨some items⟩))).1.panel.entries.filter
          Entry.isFinding =
        [.finding (some 2) (some 5) "Stray tag" "</b>" .error,
          .finding (some 9) none "" "" .warning] ∧
      (pending.complete page html (.markup (.ok ⟨some items⟩))).2 = .completed 1 1 ∧
      (pending.complete page css (.style (.ok ⟨none, some [{ line := some 1 }]⟩))).2 =
        .completed 0 1 := by
  intro page pending html css items
  have asHtml : pending.active = some html.token := rfl
  have asCss : pending.active = some css.token := rfl
  obtain ⟨shown, counted, -⟩ := (complete_shows_findings asHtml page).1 rfl items
  obtain ⟨-, styled⟩ := (complete_shows_findings asCss page).2 rfl none (some [{ line := some 1 }])
  refine ⟨asHtml, asCss, shown.trans ?_, counted.trans ?_, styled⟩
  · decide +kernel
  · decide +kernel

end Dispatcher

end PageCheck
