import PageCheck.Proofs.Dispatch.LastRun
import PageCheck.Proofs.Panel.Json

/-! # The status and the panel

How a run ended is told twice: to the caller by a status, and to the reader by the panel. The two
agree, and so do the two decisions that are read off them, whether the program fails and which
counts are printed.
-/

namespace PageCheck

/-- The entries of a completed run on the document at `path`, with these counts. -/
structure Tells (path : String) (errors warnings : Nat) (entries : List Entry) : Prop where
  summary : entries.head? = some (.plain (summaryLine path errors warnings) none .plain)
  errors_eq : entries.countP (·.isFindingOf .error) = errors
  warnings_eq : entries.countP (·.isFindingOf .warning) = warnings
  /-- Below the summary there are findings of these two classes, and at most one remark. -/
  below : ∀ entry ∈ entries.tail,
    entry.isFindingOf .error ∨ entry.isFindingOf .warning ∨ entry = .noErrors
  remark : entries.tail.count .noErrors = if errors = 0 ∧ warnings = 0 then 1 else 0

/-- The panel of a run that was begun on the document at `begun` and ended on `doc`, against the
    status of that run. -/
structure Agrees (begun : String) (doc : Document) (status : Status) (entries : List Entry) :
    Prop where
  not_stale : status ≠ .stale
  completed : ∀ errors warnings, status = .completed errors warnings →
    Tells doc.path errors warnings entries
  failed : status = .failed →
    (∃ detail, entries = [.hardFailure detail]) ∨ entries = [.validating begun, .emptyResult]
  skipped : status = .skipped → entries = [.validating begun]

theorem Report.tells_build (doc : Document) (diagnostics : List Diagnostic) :
    Tells doc.path (build doc diagnostics).errorCount (build doc diagnostics).warningCount
      (build doc diagnostics).entries where
  summary := rfl
  errors_eq := countP_build doc .error
  warnings_eq := countP_build doc .warning
  below := by
    intro entry member
    rw [entries_build, List.tail_cons, List.mem_append] at member
    rcases member with remarked | found
    · rw [remark_eq doc] at remarked
      split at remarked
      · exact Or.inr (Or.inr (List.mem_singleton.mp remarked))
      · cases remarked
    · obtain ⟨diagnostic, shown, rfl⟩ := List.mem_map.mp found
      rcases severity_of_mem_shown shown with error | warning
      · exact Or.inl ((doc.isFindingOf_entryOf diagnostic .error).trans (decide_eq_true error))
      · exact Or.inr (Or.inl
          ((doc.isFindingOf_entryOf diagnostic .warning).trans (decide_eq_true warning)))
  remark := by
    have unremarked : ((shown diagnostics).map doc.entryOf).count .noErrors = 0 := by
      rw [List.count_eq_zero]
      intro member
      obtain ⟨diagnostic, -, same⟩ := List.mem_map.mp member
      cases same
    rw [entries_build, List.tail_cons, List.count_append, unremarked, remark_eq doc]
    split <;> rfl

theorem Conclusion.agrees (begun : String) (doc : Document) (conclusion : Conclusion) :
    Agrees begun doc (conclusion.status doc) (conclusion.entries doc [.validating begun]) where
  not_stale := conclusion.status_ne_stale doc
  completed := by
    intro errors warnings ended
    cases conclusion with
    | findings diagnostics =>
        obtain ⟨rfl, rfl⟩ := Status.completed.inj ended
        exact Report.tells_build doc diagnostics
    | empty => cases ended
    | failure detail => cases ended
  failed := by
    intro ended
    cases conclusion with
    | findings diagnostics => cases ended
    | empty => exact Or.inr rfl
    | failure detail => exact Or.inl ⟨detail, rfl⟩
  skipped := by
    intro ended
    exact absurd ended (conclusion.status_ne_skipped doc)

theorem agrees_skipped (doc : Document) :
    Agrees doc.path doc .skipped [.validating doc.path] where
  not_stale := by simp
  completed := by simp
  failed := by simp
  skipped := by simp

namespace Tells

variable {path : String} {errors warnings : Nat} {entries : List Entry}

theorem exists_error_iff (tells : Tells path errors warnings entries) :
    (∃ entry ∈ entries, entry.style? = some .error) ↔ 0 < errors := by
  rw [← tells.errors_eq, List.countP_pos_iff]
  constructor
  · rintro ⟨entry, member, styled⟩
    refine ⟨entry, member, ?_⟩
    obtain ⟨rest, rfl⟩ := List.head?_eq_some_iff.mp tells.summary
    rcases List.mem_cons.mp member with rfl | lower
    · cases styled
    · rcases tells.below entry lower with error | warning | rfl
      · exact error
      · rw [Entry.style?_of_isFindingOf warning] at styled
        cases styled
      · cases styled
  · rintro ⟨entry, member, found⟩
    exact ⟨entry, member, Entry.style?_of_isFindingOf found⟩

end Tells

namespace Agrees

variable {begun : String} {doc : Document} {status : Status} {entries : List Entry}

/-- A run makes the program fail just if the panel shows an error. -/
theorem isFailing_iff (agrees : Agrees begun doc status entries) :
    status.isFailing ↔ ∃ entry ∈ entries, entry.style? = some .error := by
  cases status with
  | stale => exact absurd rfl agrees.not_stale
  | skipped => simp [agrees.skipped rfl, Status.isFailing, Entry.validating, Entry.style?]
  | failed =>
      rcases agrees.failed rfl with ⟨detail, shown⟩ | shown
      · simp [shown, Status.isFailing, Entry.hardFailure, Entry.style?]
      · simp [shown, Status.isFailing, Entry.emptyResult, Entry.style?]
  | completed errors warnings =>
      rw [(agrees.completed errors warnings rfl).exists_error_iff]
      simp [Status.isFailing]

theorem countP_eq (agrees : Agrees begun doc status entries) :
    entries.countP (·.isFindingOf .error) = status.errors ∧
      entries.countP (·.isFindingOf .warning) = status.warnings := by
  cases status with
  | stale => exact absurd rfl agrees.not_stale
  | skipped =>
      rw [agrees.skipped rfl]
      exact ⟨rfl, rfl⟩
  | failed =>
      rcases agrees.failed rfl with ⟨detail, shown⟩ | shown
      · rw [shown]
        exact ⟨rfl, rfl⟩
      · rw [shown]
        exact ⟨rfl, rfl⟩
  | completed errors warnings =>
      have tells := agrees.completed errors warnings rfl
      exact ⟨tells.errors_eq, tells.warnings_eq⟩

end Agrees

/-- The panel of a run agrees with its status, and so does all that is read off the two. -/
structure Consistent (begun : String) (doc : Document) (status : Status) (entries : List Entry) :
    Prop extends Agrees begun doc status entries where
  failing : status.isFailing ↔ ∃ entry ∈ entries, entry.style? = some .error
  /-- The printed counts are those of the line entries that are printed with them. -/
  printed : ∀ path, let panel := panelJson path entries status
    panel.summary? "errors" = some (.natural (panel.countLines .error)) ∧
      panel.summary? "warnings" = some (.natural (panel.countLines .warning))

theorem Agrees.consistent {begun : String} {doc : Document} {status : Status}
    {entries : List Entry} (agrees : Agrees begun doc status entries) :
    Consistent begun doc status entries where
  toAgrees := agrees
  failing := agrees.isFailing_iff
  printed := by
    intro path
    obtain ⟨errors, warnings⟩ := agrees.countP_eq
    simp only [countLines_panelJson, errors, warnings]
    exact summary?_panelJson path entries status

namespace Dispatcher

variable {dispatcher : Dispatcher}

theorem agrees_validate (doc : Document) (answer : Request → Outcome) :
    Agrees doc.path doc (dispatcher.validate (some doc) answer).status
      (dispatcher.validate (some doc) answer).dispatcher.panel.entries := by
  cases asked : dispatcher.request? doc with
  | none =>
      rw [validate_of_unsupported ((request?_eq_none_iff dispatcher doc).mp asked)]
      exact agrees_skipped doc
  | some request =>
      rw [validate_of_request asked]
      exact ((answer request).conclusion doc.target).agrees doc.path doc

/-- From every state that a history can leave, a run that is completed in time, and every run from
    beginning to end, leaves a panel that agrees with its status. -/
theorem consistent_of_reachable (reachable : dispatcher.Reachable) (doc : Document) :
    (∀ invocation outcome, (dispatcher.complete doc invocation outcome).2 ≠ .stale →
      ∃ begun, dispatcher.panel.entries = [.validating begun] ∧
        Consistent begun doc (dispatcher.complete doc invocation outcome).2
          (dispatcher.complete doc invocation outcome).1.panel.entries) ∧
    ∀ services : Services,
      Consistent doc.path doc (dispatcher.validate (some doc) services.answer).status
        (dispatcher.validate (some doc) services.answer).dispatcher.panel.entries := by
  constructor
  · intro invocation outcome fresh
    have active := complete_ne_stale_iff.mp fresh
    obtain ⟨begun, noted⟩ := reachable.entries_of_active active
    refine ⟨begun, noted, ?_⟩
    rw [complete_of_active active, entries_settled, noted]
    exact ((outcome.conclusion invocation.target).agrees begun doc).consistent
  · intro services
    exact (agrees_validate doc services.answer).consistent

/-- A page with one error is completed on a panel that another page was begun on. -/
theorem consistent_of_reachable_stray_tag :
    let first : Document := ⟨"index.html", "<p>", "text.html.basic"⟩
    let second : Document := ⟨"about.html", "</b>", "text.html.basic"⟩
    let pending := (new .empty {}).started first
    let invocation : Invocation := ⟨⟨1⟩, .html, .markup "<p>"⟩
    let outcome : Outcome := .markup (.ok ⟨some [{ kind := "error", lastLine := some 1 }]⟩)
    pending.Reachable ∧ (pending.complete second invocation outcome).2 = .completed 1 0 ∧
      ∃ begun, pending.panel.entries = [.validating begun] ∧
        Consistent begun second (pending.complete second invocation outcome).2
          (pending.complete second invocation outcome).1.panel.entries := by
  intro first second pending invocation outcome
  have reachable : pending.Reachable := ⟨{}, [.begin (some first)], rfl⟩
  have counted : (pending.complete second invocation outcome).2 = .completed 1 0 := by
    decide +kernel
  exact ⟨reachable, counted,
    (consistent_of_reachable reachable second).1 invocation outcome (by simp [counted])⟩

end Dispatcher

end PageCheck
