import PageCheck.Proofs.Dispatch.Bookkeeping
import PageCheck.Proofs.Dispatch.Tokens

/-! # A run from beginning to end

Such a run takes nothing from what was there before it, save the style options: neither what the
panel shows nor a pending run comes into it. It also leaves nothing pending, neither of its own nor
of what was begun before it. A token that has been minted and is not active stays so for good,
since only new tokens ever become active.
-/

namespace PageCheck

namespace Dispatcher

/-- The token of a run that can commit nothing more. -/
def Spent (dispatcher : Dispatcher) (token : Token) : Prop :=
  token.number ≤ dispatcher.minted ∧ dispatcher.active ≠ some token

namespace Spent

variable {dispatcher : Dispatcher} {token : Token}

theorem started (minted : token.number ≤ dispatcher.minted) (doc : Document) :
    (dispatcher.started doc).Spent token := by
  constructor
  · rw [minted_started]
    omega
  · rw [active_started]
    rintro ⟨⟩
    simp only at minted
    omega

theorem settled (minted : token.number ≤ dispatcher.minted) (doc : Document)
    (conclusion : Conclusion) : (dispatcher.settled doc conclusion).Spent token :=
  ⟨minted, by simp⟩

/-- A new run leaves behind all tokens that were minted before it. -/
theorem of_begins (minted : token.number ≤ dispatcher.minted) {step : Step} {doc : Document}
    (begins : step.document? = some doc) : (dispatcher.step step).1.Spent token := by
  rcases step_cases dispatcher step with
    ⟨idle, -⟩ | ⟨idle, -⟩ | ⟨own, -, same | ⟨conclusion, same⟩⟩
  · cases idle.symm.trans begins
  · cases idle.symm.trans begins
  · rw [same]
    exact started minted own
  · rw [same]
    exact settled (started minted own).1 own conclusion

theorem step (spent : dispatcher.Spent token) (step : Step) :
    (dispatcher.step step).1.Spent token := by
  rcases step_cases dispatcher step with
    ⟨-, same⟩ | ⟨-, doc, conclusion, same⟩ | ⟨doc, begins, -⟩
  · rw [same]
    exact spent
  · rw [same]
    exact settled spent.1 doc conclusion
  · exact of_begins spent.1 begins

theorem after (spent : dispatcher.Spent token) (history : List Step) :
    (dispatcher.after history).Spent token := by
  induction history generalizing dispatcher with
  | nil => exact spent
  | cons first rest ih => exact ih (spent.step first)

theorem complete_eq (spent : dispatcher.Spent token) {invocation : Invocation}
    (carried : invocation.token = token) (doc : Document) (outcome : Outcome) :
    dispatcher.complete doc invocation outcome = (dispatcher, .stale) := by
  subst carried
  exact complete_of_not_active spent.2

end Spent

theorem number_le_of_issues {options : StyleOptions} {history : List Step} {token : Token}
    (issued : token ∈ (new .empty options).issues ((new .empty options).halves history)) :
    token.number ≤ ((new .empty options).after history).minted := by
  rw [← play_halves, minted_play]
  exact (mem_mints_iff.mp (mints_of_issues issued)).2

section Validate

variable {dispatcher : Dispatcher}

theorem validate_answer_congr {doc : Document} {answer other : Request → Outcome}
    (alike : ∀ request ∈ dispatcher.request? doc, answer request = other request) :
    dispatcher.validate (some doc) answer = dispatcher.validate (some doc) other := by
  cases asked : dispatcher.request? doc with
  | none =>
      have unsupported := (request?_eq_none_iff dispatcher doc).mp asked
      rw [validate_of_unsupported unsupported, validate_of_unsupported unsupported]
  | some request =>
      rw [validate_of_request asked, validate_of_request asked, alike request asked]

theorem status_validate (document : Option Document) (answer : Request → Outcome) :
    (dispatcher.validate document answer).status ≠ .stale ∧
      ((dispatcher.validate document answer).status = .skipped ↔
        ∀ doc ∈ document, doc.target = .unsupported) := by
  cases document with
  | none => simp [validate]
  | some doc =>
      cases asked : dispatcher.request? doc with
      | none =>
          have unsupported := (request?_eq_none_iff dispatcher doc).mp asked
          simp [validate_of_unsupported unsupported, unsupported]
      | some request =>
          have supported : doc.target ≠ .unsupported := by
            intro unsupported
            cases asked.symm.trans ((request?_eq_none_iff dispatcher doc).mpr unsupported)
          rw [validate_of_request asked]
          simp [Conclusion.status_ne_stale, Conclusion.status_ne_skipped, supported]

end Validate

/-- A run on a document comes to the same from any two states with the same style options, if the
    services give the same answer to its call: the same status, the same entries, the same call. It
    is never stale, and skipped just if there is no document, which changes nothing, or none that a
    service judges. After it, an invocation that was returned before it can be completed at any
    time, on any document and with any outcome: it is stale. -/
theorem validate_independent {dispatcher other : Dispatcher}
    (same : dispatcher.options = other.options) (doc : Document) {services likewise : Services}
    (alike : ∀ request ∈ dispatcher.request? doc,
      services.answer request = likewise.answer request) :
    let run := dispatcher.validate (some doc) services.answer
    let twin := other.validate (some doc) likewise.answer
    (run.status = twin.status ∧
      run.dispatcher.panel.entries = twin.dispatcher.panel.entries ∧ run.call = twin.call) ∧
    (∀ document,
      (dispatcher.validate document services.answer).status ≠ .stale ∧
        ((dispatcher.validate document services.answer).status = .skipped ↔
          ∀ doc ∈ document, doc.target = .unsupported)) ∧
    dispatcher.validate none services.answer = ⟨dispatcher, .skipped, none⟩ ∧
    ∀ options history, (new .empty options).after history = dispatcher →
      ∀ invocation : Invocation,
        invocation.token ∈ (new .empty options).issues ((new .empty options).halves history) →
        ∀ later completed outcome,
          (run.dispatcher.after later).complete completed invocation outcome =
            (run.dispatcher.after later, .stale) := by
  intro run twin
  refine ⟨?_, fun document => status_validate document services.answer, rfl, ?_⟩
  · have answered : other.validate (some doc) likewise.answer =
        other.validate (some doc) services.answer := by
      apply validate_answer_congr
      intro request asked
      rw [← request?_congr same] at asked
      exact (alike request asked).symm
    obtain ⟨status, entries⟩ := validate_congr same doc services.answer
    simp only [run, twin, answered, call_validate]
    exact ⟨status, entries, request?_congr same⟩
  · rintro options history rfl invocation issued later completed outcome
    have begins : (Step.validate (some doc) services).document? = some doc := rfl
    have spent : run.dispatcher.Spent invocation.token :=
      Spent.of_begins (number_le_of_issues issued) begins
    exact (spent.after later).complete_eq rfl completed outcome

/-- A style sheet is run while a page is pending, and on a dispatcher that has run nothing. The
    page's invocation then comes too late, even with the target of a style sheet. -/
theorem validate_independent_pending :
    let page : Document := ⟨"index.html", "<p>", "text.html.basic"⟩
    let sheet : Document := ⟨"site.css", "a", "source.css"⟩
    let services : Services :=
      ⟨fun _ => .ok {}, fun _ _ => .ok { errors := some [{ line := some 1 }] }⟩
    let likewise : Services := ⟨fun _ => .error (.service "down"), services.style⟩
    let pending := (new .empty {}).started page
    let run := pending.validate (some sheet) services.answer
    let twin := (new .empty {}).validate (some sheet) likewise.answer
    pending.options = (new .empty {}).options ∧
      (∀ request ∈ pending.request? sheet, services.answer request = likewise.answer request) ∧
      run.status = .completed 1 0 ∧ twin.status = .completed 1 0 ∧
      run.dispatcher.panel.entries = twin.dispatcher.panel.entries ∧
      (run.dispatcher.complete page ⟨⟨1⟩, .css, .markup "<p>"⟩ (.markup (.ok {}))).2 = .stale := by
  intro page sheet services likewise pending run twin
  have alike : ∀ request ∈ pending.request? sheet,
      services.answer request = likewise.answer request := by
    intro request asked
    have styled : pending.request? sheet = some (.style "a" {}) := by decide +kernel
    obtain rfl := Option.some.inj (styled.symm.trans asked)
    rfl
  have completed : run.status = .completed 1 0 := by decide +kernel
  have same : pending.options = (new .empty {}).options := rfl
  obtain ⟨⟨status, entries, -⟩, -, -, late⟩ := validate_independent same sheet alike
  have issued : (⟨1⟩ : Token) ∈
      (new .empty {}).issues ((new .empty {}).halves [.begin (some page)]) := by decide +kernel
  have stale := late {} [.begin (some page)] rfl ⟨⟨1⟩, .css, .markup "<p>"⟩ issued [] page
    (.markup (.ok {}))
  exact ⟨same, alike, completed, status.symm.trans completed, entries, congrArg Prod.snd stale⟩

end Dispatcher

end PageCheck
