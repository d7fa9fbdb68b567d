import PageCheck.Proofs.Dispatch.Bookkeeping

/-! # Failed runs

A completed run either reports or fails, and which of the two is a matter of its target and of what
its service came back with. Only a result of the target's own service is reported. Whatever else
comes back, no part of a report is left on the panel.
-/

namespace PageCheck

/-- Whether an entry belongs to a report: its summary, its remark that there are no findings, or a
    finding. -/
def Entry.isReported : Entry → Bool
  | progress _ => false
  | plain _ _ style => style = .plain || style = .success
  | finding .. => true

namespace Conclusion

variable {conclusion : Conclusion} {doc : Document}

theorem status_eq_completed_iff :
    (∃ errors warnings, conclusion.status doc = .completed errors warnings) ↔
      ∃ diagnostics, conclusion = .findings diagnostics := by
  cases conclusion <;> simp [status]

theorem isReported_iff (begun : String) :
    (∃ entry ∈ conclusion.entries doc [.validating begun], entry.isReported) ↔
      ∃ diagnostics, conclusion = .findings diagnostics := by
  cases conclusion with
  | findings diagnostics =>
      -- Every report begins with its summary.
      simp [entries, Report.build, Entry.isReported]
  | empty => simp [entries, Entry.isReported, Entry.validating, Entry.emptyResult]
  | failure detail => simp [entries, Entry.isReported, Entry.hardFailure]

end Conclusion

namespace Dispatcher

/-- The state and the status of a run that has failed and left these entries. -/
structure FailedWith (entries : List Entry) (ended : Dispatcher × Status) : Prop where
  status : ended.2 = .failed
  idle : ended.1.active = none
  entries : ended.1.panel.entries = entries

variable {dispatcher : Dispatcher} {doc : Document} {invocation : Invocation} {outcome : Outcome}

theorem complete_of_failure {detail : String}
    (active : dispatcher.active = some invocation.token)
    (failed : outcome.conclusion invocation.target = .failure detail) :
    FailedWith [.hardFailure detail] (dispatcher.complete doc invocation outcome) := by
  rw [complete_of_active active, failed]
  exact ⟨rfl, rfl, rfl⟩

theorem complete_of_empty {begun : String} (active : dispatcher.active = some invocation.token)
    (noted : dispatcher.panel.entries = [.validating begun])
    (nothing : outcome.conclusion invocation.target = .empty) :
    FailedWith [.validating begun, .emptyResult] (dispatcher.complete doc invocation outcome) := by
  rw [complete_of_active active, nothing]
  refine ⟨rfl, rfl, ?_⟩
  rw [entries_settled, noted]
  rfl

/-- From any state that a history can leave, a run that is completed in time fails or reports. A
    failure of either service, and a result of the service that does not judge the target, leave a
    hard failure with their own text and nothing else; an answer without messages to a page leaves a
    remark below the progress note of this very run. There is a report, for the caller and on the
    panel, just if a page was answered with messages or a style sheet with a result. -/
theorem complete_fails_or_reports (options : StyleOptions) (history : List Step) (doc : Document)
    (invocation : Invocation) (outcome : Outcome) :
    let last := (new .empty options).after history
    let ended := last.complete doc invocation outcome
    (last.active = some invocation.token →
      (∀ failure, outcome.failure? = some failure →
        FailedWith [.hardFailure failure.message] ended) ∧
      (outcome.failure? = none → outcome.source ≠ invocation.target →
        FailedWith [.hardFailure (invocation.target.name ++
          " validation completed with a result from another validator")] ended) ∧
      (invocation.target = .html → outcome = .markup (.ok ⟨none⟩) →
        ∃ begun, MintedOn options history invocation.token begun ∧
          FailedWith [.validating begun.path, .emptyResult] ended) ∧
      ((∃ entry ∈ ended.1.panel.entries, entry.isReported) ↔
        ∃ diagnostics, outcome.IsResultFor invocation.target diagnostics)) ∧
    ((∃ errors warnings, ended.2 = .completed errors warnings) ↔
      last.active = some invocation.token ∧
        ∃ diagnostics, outcome.IsResultFor invocation.target diagnostics) := by
  intro last ended
  have reports : (∃ diagnostics,
      outcome.conclusion invocation.target = .findings diagnostics) ↔
        ∃ diagnostics, outcome.IsResultFor invocation.target diagnostics :=
    exists_congr fun _ => Outcome.conclusion_eq_findings_iff
  constructor
  · intro active
    obtain ⟨-, begun, minted, noted⟩ :=
      (wellKept_after options history).pending invocation.token active
    refine ⟨?_, ?_, ?_, ?_⟩
    · intro failure failed
      exact complete_of_failure active (Outcome.conclusion_of_failure failed)
    · intro answered foreign
      exact complete_of_failure active (Outcome.conclusion_of_foreign answered foreign)
    · rintro html rfl
      have nothing : (Outcome.markup (.ok ⟨none⟩)).conclusion invocation.target = .empty := by
        rw [html]
        rfl
      exact ⟨begun, minted, complete_of_empty active noted nothing⟩
    · have noted : last.panel.entries = [.validating begun.path] := noted
      simp only [ended, complete_of_active active, entries_settled, noted, ← reports]
      exact Conclusion.isReported_iff begun.path
  · by_cases active : last.active = some invocation.token
    · simp only [ended, complete_of_active active, active, true_and, ← reports]
      exact Conclusion.status_eq_completed_iff
    · simp [ended, complete_of_not_active active, active]

/-- One pending run on a page, whose invocation comes back with a failure, with the result of the
    other service, and without messages. -/
theorem complete_fails_or_reports_page :
    let page : Document := ⟨"index.html", "<p>", "text.html.basic"⟩
    let pending := (new .empty {}).after [.begin (some page)]
    let invocation : Invocation := ⟨⟨1⟩, .html, .markup "<p>"⟩
    pending.active = some invocation.token ∧
      FailedWith [.hardFailure "down"]
        (pending.complete page invocation (.style (.error (.service "down")))) ∧
      FailedWith
        [.hardFailure "Html validation completed with a result from another validator"]
        (pending.complete page invocation (.style (.ok {}))) ∧
      FailedWith [.validating "index.html", .emptyResult]
        (pending.complete page invocation (.markup (.ok {}))) ∧
      ∃ errors warnings, (pending.complete page invocation (.markup (.ok ⟨some []⟩))).2 =
        .completed errors warnings := by
  intro page pending invocation
  have active : pending.active = some invocation.token := rfl
  have ended := complete_fails_or_reports {} [.begin (some page)] page invocation
  refine ⟨active, ?_, ?_, ?_, ?_⟩
  · exact ((ended (.style (.error (.service "down")))).1 active).1 _ rfl
  · exact ((ended (.style (.ok {}))).1 active).2.1 rfl (by decide)
  · -- The progress note is that of the run that minted the token, and there is only one run.
    obtain ⟨begun, ⟨before, step, later, split, begins, -⟩, failed⟩ :=
      ((ended (.markup (.ok {}))).1 active).2.2.1 rfl rfl
    obtain ⟨rfl, rfl, rfl⟩ : before = [] ∧ step = .begin (some page) ∧ later = [] := by
      cases before with
      | nil => simpa [eq_comm] using split
      | cons => simp at split
    obtain rfl := Option.some.inj begins
    exact failed
  · exact (ended (.markup (.ok ⟨some []⟩))).2.mpr ⟨active, _, .html []⟩

end Dispatcher

end PageCheck
