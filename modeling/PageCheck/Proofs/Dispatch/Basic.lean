import PageCheck.Dispatch.History

/-! # What a dispatcher does

One equation for each operation of a dispatcher, and the state that a history leaves. A history can
also be written out as a sequence of halves, in which `validate` is a beginning followed, if a
service judges the document, by a completion. Both leave the same state, so that statements about
histories need only consider the two halves.
-/

namespace PageCheck

namespace Outcome

/-- The failure that a call came back with, whichever service it went to. -/
def failure? : Outcome → Option Failure
  | markup (.error failure) | style (.error failure) => some failure
  | markup (.ok _) | style (.ok _) => none

/-- The target whose documents the called service judges. -/
def source : Outcome → Target
  | markup _ => .html
  | style _ => .css

/-- The outcome holds a result that a run on the target reports, with these findings. -/
inductive IsResultFor : Target → Outcome → List Diagnostic → Prop where
  | html (items : List MarkupMessage) :
      IsResultFor .html (.markup (.ok ⟨some items⟩)) (markupDiagnostics items)
  | css (answer : StyleAnswer) : IsResultFor .css (.style (.ok answer)) answer.diagnostics

variable {target : Target} {outcome : Outcome}

/-- A failure comes first: the target has no say in it. -/
theorem conclusion_of_failure {failure : Failure} (failed : outcome.failure? = some failure) :
    outcome.conclusion target = .failure failure.message := by
  cases outcome with
  | markup result | style result =>
      cases result with
      | ok answer => cases failed
      | error own =>
          obtain rfl := Option.some.inj failed
          rfl

theorem conclusion_of_foreign (answered : outcome.failure? = none)
    (foreign : outcome.source ≠ target) :
    outcome.conclusion target =
      .failure (target.name ++ " validation completed with a result from another validator") := by
  cases outcome with
  | markup result =>
      cases result with
      | error failure => cases answered
      | ok answer =>
          cases target with
          | html => exact absurd rfl foreign
          | css | unsupported => rfl
  | style result =>
      cases result with
      | error failure => cases answered
      | ok answer =>
          cases target with
          | css => exact absurd rfl foreign
          | html | unsupported => rfl

theorem conclusion_of_isResultFor {diagnostics : List Diagnostic}
    (result : IsResultFor target outcome diagnostics) :
    outcome.conclusion target = .findings diagnostics := by
  cases result with
  | html items => rfl
  | css answer => rfl

/-- An answer of the target's own service is a result, except that one for a page may be without
    messages. -/
theorem empty_or_isResultFor (answered : outcome.failure? = none) :
    outcome = .markup (.ok ⟨none⟩) ∨
      ∃ diagnostics, IsResultFor outcome.source outcome diagnostics := by
  cases outcome with
  | markup result =>
      cases result with
      | error failure => cases answered
      | ok answer =>
          obtain ⟨messages⟩ := answer
          cases messages with
          | none => exact .inl rfl
          | some items => exact .inr ⟨_, .html items⟩
  | style result =>
      cases result with
      | error failure => cases answered
      | ok answer => exact .inr ⟨_, .css answer⟩

theorem conclusion_eq_findings_iff {diagnostics : List Diagnostic} :
    outcome.conclusion target = .findings diagnostics ↔
      IsResultFor target outcome diagnostics := by
  constructor
  · intro concluded
    cases answered : outcome.failure? with
    | some failure =>
        rw [conclusion_of_failure answered] at concluded
        cases concluded
    | none =>
        by_cases own : outcome.source = target
        · subst own
          rcases empty_or_isResultFor answered with rfl | ⟨found, result⟩
          · cases concluded
          · obtain rfl := Conclusion.findings.inj
              ((conclusion_of_isResultFor result).symm.trans concluded)
            exact result
        · rw [conclusion_of_foreign answered own] at concluded
          cases concluded
  · exact conclusion_of_isResultFor

end Outcome

namespace Conclusion

/-- What a conclusion on `doc` makes of the entries shown so far. -/
def entries (doc : Document) (shown : List Entry) : Conclusion → List Entry
  | findings diagnostics => (Report.build doc diagnostics).entries
  | empty => shown ++ [.emptyResult]
  | failure detail => [.hardFailure detail]

/-- How a run with this conclusion on `doc` ends. -/
def status (doc : Document) : Conclusion → Status
  | findings diagnostics =>
      .completed (Report.build doc diagnostics).errorCount
        (Report.build doc diagnostics).warningCount
  | empty | failure _ => .failed

theorem status_ne_stale (doc : Document) (conclusion : Conclusion) :
    conclusion.status doc ≠ .stale := by
  cases conclusion <;> simp [status]

theorem status_ne_skipped (doc : Document) (conclusion : Conclusion) :
    conclusion.status doc ≠ .skipped := by
  cases conclusion <;> simp [status]

end Conclusion

namespace Dispatcher

variable (dispatcher : Dispatcher) (doc : Document)

@[simp] theorem minted_new (panel : Panel) (options : StyleOptions) :
    (new panel options).minted = 0 := rfl

@[simp] theorem active_new (panel : Panel) (options : StyleOptions) :
    (new panel options).active = none := rfl

@[simp] theorem minted_started : (dispatcher.started doc).minted = dispatcher.minted + 1 := rfl

@[simp] theorem active_started :
    (dispatcher.started doc).active = some ⟨dispatcher.minted + 1⟩ := rfl

@[simp] theorem options_started : (dispatcher.started doc).options = dispatcher.options := rfl

@[simp] theorem entries_started :
    (dispatcher.started doc).panel.entries = [.validating doc.path] := rfl

theorem request?_eq_none_iff :
    dispatcher.request? doc = none ↔ doc.target = .unsupported := by
  unfold request?
  cases doc.target <;> simp

theorem begin_some :
    dispatcher.begin (some doc) = (dispatcher.started doc,
      (dispatcher.request? doc).map (⟨⟨dispatcher.minted + 1⟩, doc.target, ·⟩)) := rfl

variable {dispatcher doc} in
theorem token_of_begin {invocation : Invocation}
    (returned : (dispatcher.begin (some doc)).2 = some invocation) :
    invocation.token = ⟨dispatcher.minted + 1⟩ := by
  simp only [begin_some, Option.map_eq_some_iff] at returned
  obtain ⟨request, -, rfl⟩ := returned
  rfl

variable {dispatcher doc} in
theorem target_of_begin {invocation : Invocation}
    (returned : (dispatcher.begin (some doc)).2 = some invocation) :
    invocation.target = doc.target := by
  simp only [begin_some, Option.map_eq_some_iff] at returned
  obtain ⟨request, -, rfl⟩ := returned
  rfl

variable {doc} in
theorem begin_of_unsupported (unsupported : doc.target = .unsupported) :
    (dispatcher.begin (some doc)).2 = none := by
  simp only [begin_some, (request?_eq_none_iff dispatcher doc).mpr unsupported, Option.map_none]

/-- The state once the pending run has come to a conclusion on `doc`. -/
def settled (conclusion : Conclusion) : Dispatcher :=
  { dispatcher with
    panel := dispatcher.panel.replace (conclusion.entries doc dispatcher.panel.entries)
    active := none }

@[simp] theorem minted_settled (conclusion : Conclusion) :
    (dispatcher.settled doc conclusion).minted = dispatcher.minted := rfl

@[simp] theorem active_settled (conclusion : Conclusion) :
    (dispatcher.settled doc conclusion).active = none := rfl

@[simp] theorem options_settled (conclusion : Conclusion) :
    (dispatcher.settled doc conclusion).options = dispatcher.options := rfl

@[simp] theorem entries_settled (conclusion : Conclusion) :
    (dispatcher.settled doc conclusion).panel.entries =
      conclusion.entries doc dispatcher.panel.entries := rfl

theorem complete_eq (invocation : Invocation) (outcome : Outcome) :
    dispatcher.complete doc invocation outcome =
      if dispatcher.active = some invocation.token then
        (dispatcher.settled doc (outcome.conclusion invocation.target),
          (outcome.conclusion invocation.target).status doc)
      else (dispatcher, .stale) := by
  unfold complete
  cases outcome.conclusion invocation.target <;> rfl

variable {dispatcher doc}

theorem complete_of_active {invocation : Invocation} {outcome : Outcome}
    (active : dispatcher.active = some invocation.token) :
    dispatcher.complete doc invocation outcome =
      (dispatcher.settled doc (outcome.conclusion invocation.target),
        (outcome.conclusion invocation.target).status doc) := by
  rw [complete_eq, if_pos active]

theorem complete_of_not_active {invocation : Invocation} {outcome : Outcome}
    (idle : dispatcher.active ≠ some invocation.token) :
    dispatcher.complete doc invocation outcome = (dispatcher, .stale) := by
  rw [complete_eq, if_neg idle]

theorem complete_ne_stale_iff {invocation : Invocation} {outcome : Outcome} :
    (dispatcher.complete doc invocation outcome).2 ≠ .stale ↔
      dispatcher.active = some invocation.token := by
  by_cases active : dispatcher.active = some invocation.token
  · simp only [complete_of_active active, active, ne_eq, Conclusion.status_ne_stale,
      not_false_eq_true]
  · simp only [complete_of_not_active active, active, ne_eq, not_true_eq_false]

theorem validate_of_unsupported {answer : Request → Outcome}
    (unsupported : doc.target = .unsupported) :
    dispatcher.validate (some doc) answer = ⟨dispatcher.started doc, .skipped, none⟩ := by
  have silent : dispatcher.request? doc = none :=
    (request?_eq_none_iff dispatcher doc).mpr unsupported
  simp only [validate, begin_some, silent, Option.map_none]

theorem validate_of_request {answer : Request → Outcome} {request : Request}
    (asked : dispatcher.request? doc = some request) :
    dispatcher.validate (some doc) answer =
      ⟨(dispatcher.started doc).settled doc ((answer request).conclusion doc.target),
        ((answer request).conclusion doc.target).status doc, some request⟩ := by
  simp only [validate, begin_some, asked, Option.map_some]
  rw [complete_of_active rfl]

theorem call_validate (answer : Request → Outcome) :
    (dispatcher.validate (some doc) answer).call = dispatcher.request? doc := by
  cases asked : dispatcher.request? doc with
  | none => rw [validate_of_unsupported ((request?_eq_none_iff dispatcher doc).mp asked)]
  | some request => rw [validate_of_request asked]

theorem options_validate (answer : Request → Outcome) :
    (dispatcher.validate (some doc) answer).dispatcher.options = dispatcher.options := by
  cases asked : dispatcher.request? doc with
  | none =>
      rw [validate_of_unsupported ((request?_eq_none_iff dispatcher doc).mp asked)]
      rfl
  | some request =>
      rw [validate_of_request asked]
      rfl

theorem request?_congr {other : Dispatcher} (same : dispatcher.options = other.options) :
    dispatcher.request? doc = other.request? doc := by
  simp only [request?, same]

/-- Of its dispatcher, a run from beginning to end sees the style options alone. -/
theorem validate_congr {other : Dispatcher} (same : dispatcher.options = other.options)
    (doc : Document) (answer : Request → Outcome) :
    (dispatcher.validate (some doc) answer).status = (other.validate (some doc) answer).status ∧
      (dispatcher.validate (some doc) answer).dispatcher.panel.entries =
        (other.validate (some doc) answer).dispatcher.panel.entries := by
  cases asked : dispatcher.request? doc with
  | none =>
      have unsupported := (request?_eq_none_iff dispatcher doc).mp asked
      rw [validate_of_unsupported unsupported, validate_of_unsupported unsupported]
      exact ⟨rfl, rfl⟩
  | some request =>
      rw [validate_of_request asked, validate_of_request ((request?_congr same).symm.trans asked)]
      exact ⟨rfl, rfl⟩

def after (dispatcher : Dispatcher) (history : List Step) : Dispatcher :=
  (dispatcher.run history).1

@[simp] theorem after_nil : dispatcher.after [] = dispatcher := rfl

@[simp] theorem after_cons (first : Step) (rest : List Step) :
    dispatcher.after (first :: rest) = (dispatcher.step first).1.after rest := rfl

theorem after_append (before later : List Step) :
    dispatcher.after (before ++ later) = (dispatcher.after before).after later := by
  induction before generalizing dispatcher with
  | nil => rfl
  | cons first rest ih => exact ih

/-- A state that some history leaves behind on a fresh panel. -/
def Reachable (dispatcher : Dispatcher) : Prop :=
  ∃ options history, (new .empty options).after history = dispatcher

end Dispatcher

/-- One half of a run on a document. -/
inductive Half where
  | begin (document : Document)
  | complete (document : Document) (invocation : Invocation) (outcome : Outcome)

namespace Half

def isBegin : Half → Bool
  | begin _ => true
  | complete .. => false

/-- The token that a completion carries. -/
def token? : Half → Option Token
  | begin _ => none
  | complete _ invocation _ => some invocation.token

def toStep : Half → Dispatcher.Step
  | begin document => .begin (some document)
  | complete document invocation outcome => .complete document invocation outcome

end Half

namespace Dispatcher

variable (dispatcher : Dispatcher)

def halvesOf : Step → List Half
  | .begin none | .validate none _ => []
  | .begin (some doc) => [.begin doc]
  | .complete doc invocation outcome => [.complete doc invocation outcome]
  | .validate (some doc) services =>
      .begin doc :: ((dispatcher.begin (some doc)).2.map fun invocation =>
        Half.complete doc invocation (services.answer invocation.request)).toList

/-- A history written out as halves. -/
def halves (dispatcher : Dispatcher) : List Step → List Half
  | [] => []
  | first :: rest => dispatcher.halvesOf first ++ (dispatcher.step first).1.halves rest

/-- The state that a sequence of halves leaves, each taken as a step of its own. -/
def play (halves : List Half) : Dispatcher :=
  dispatcher.after (halves.map Half.toStep)

@[simp] theorem play_nil : dispatcher.play [] = dispatcher := rfl

@[simp] theorem play_begin (doc : Document) (rest : List Half) :
    dispatcher.play (.begin doc :: rest) = (dispatcher.started doc).play rest := rfl

@[simp] theorem play_complete (doc : Document) (invocation : Invocation) (outcome : Outcome)
    (rest : List Half) :
    dispatcher.play (.complete doc invocation outcome :: rest) =
      (dispatcher.complete doc invocation outcome).1.play rest := rfl

theorem play_append (before later : List Half) :
    dispatcher.play (before ++ later) = (dispatcher.play before).play later := by
  simp only [play, List.map_append, after_append]

theorem play_halvesOf (step : Step) :
    dispatcher.play (dispatcher.halvesOf step) = (dispatcher.step step).1 := by
  cases step with
  | begin document => cases document <;> rfl
  | complete doc invocation outcome => rfl
  | validate document services =>
      cases document with
      | none => rfl
      | some doc =>
          -- Only a beginning that asks a service is followed by a completion of its own.
          cases asked : dispatcher.request? doc with
          | none =>
              have unsupported := (request?_eq_none_iff dispatcher doc).mp asked
              simp [halvesOf, step, begin_some, asked, validate_of_unsupported unsupported]
          | some request =>
              simp only [halvesOf, step, begin_some, asked, Option.map_some, Option.toList_some,
                play_begin, play_complete, play_nil, validate_of_request asked]
              rw [complete_of_active rfl]

/-- Written out as halves, a history leaves the same state. -/
theorem play_halves (history : List Step) :
    dispatcher.play (dispatcher.halves history) = dispatcher.after history := by
  induction history generalizing dispatcher with
  | nil => rfl
  | cons first rest ih => rw [halves, play_append, play_halvesOf, ih, after_cons]

theorem halves_append (before later : List Step) :
    dispatcher.halves (before ++ later) =
      dispatcher.halves before ++ (dispatcher.after before).halves later := by
  induction before generalizing dispatcher with
  | nil => rfl
  | cons first rest ih =>
      simp only [List.cons_append, halves, ih, after_cons, List.append_assoc]

theorem minted_complete (doc : Document) (invocation : Invocation) (outcome : Outcome) :
    (dispatcher.complete doc invocation outcome).1.minted = dispatcher.minted := by
  rw [complete_eq]
  split <;> rfl

/-- One token is minted for each beginning. -/
theorem minted_play (halves : List Half) :
    (dispatcher.play halves).minted = dispatcher.minted + halves.countP Half.isBegin := by
  induction halves generalizing dispatcher with
  | nil => rfl
  | cons half rest ih =>
      cases half with
      | begin doc =>
          rw [play_begin, ih, minted_started, List.countP_cons_of_pos rfl]
          omega
      | complete doc invocation outcome =>
          rw [play_complete, ih, minted_complete, List.countP_cons_of_neg (by simp [Half.isBegin])]

end Dispatcher

end PageCheck
