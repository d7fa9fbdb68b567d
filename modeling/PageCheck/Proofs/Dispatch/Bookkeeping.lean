import Mathlib.Data.List.Induction
import PageCheck.Proofs.Dispatch.Basic

/-! # A dispatcher's bookkeeping

What a step can do to a dispatcher, in three cases, and from it what holds of the state after any
history. The panel's openings, the tokens and the style options stay in step with the documents that
runs have begun on, and while a run is pending the panel shows its progress note and nothing else.
Steps that return stale, or are given no document, are not in the books at all: a history without
them has the same replies and the same end.

Token numbers are unbounded here, and those of fewer than `2 ^ 64` runs fit a machine word.
-/

namespace PageCheck

namespace Dispatcher

/-- The document that a step begins a run on. -/
def Step.document? : Step → Option Document
  | .begin document | .validate document _ => document
  | .complete .. => none

theorem step_cases (dispatcher : Dispatcher) (step : Step) :
    (step.document? = none ∧ (dispatcher.step step).1 = dispatcher) ∨
    (step.document? = none ∧
      ∃ doc conclusion, (dispatcher.step step).1 = dispatcher.settled doc conclusion) ∨
    ∃ doc, step.document? = some doc ∧
      ((dispatcher.step step).1 = dispatcher.started doc ∨
        ∃ conclusion,
          (dispatcher.step step).1 = (dispatcher.started doc).settled doc conclusion) := by
  cases step with
  | begin document =>
      cases document with
      | none => exact .inl ⟨rfl, rfl⟩
      | some doc => exact .inr (.inr ⟨doc, rfl, .inl rfl⟩)
  | complete doc invocation outcome =>
      by_cases active : dispatcher.active = some invocation.token
      · exact .inr (.inl ⟨rfl, doc, _, congrArg Prod.fst (complete_of_active active)⟩)
      · exact .inl ⟨rfl, congrArg Prod.fst (complete_of_not_active active)⟩
  | validate document services =>
      cases document with
      | none => exact .inl ⟨rfl, rfl⟩
      | some doc =>
          refine .inr (.inr ⟨doc, rfl, ?_⟩)
          cases asked : dispatcher.request? doc with
          | none =>
              have unsupported := (request?_eq_none_iff dispatcher doc).mp asked
              exact .inl (congrArg Run.dispatcher (validate_of_unsupported unsupported))
          | some request =>
              exact .inr ⟨_, congrArg Run.dispatcher (validate_of_request asked)⟩

/-- The documents that a history begins runs on, oldest first. -/
def begun (history : List Step) : List Document :=
  history.filterMap Step.document?

theorem begun_concat_of_none {step : Step} (history : List Step) (idle : step.document? = none) :
    begun (history ++ [step]) = begun history := by
  simp [begun, idle]

theorem begun_concat_of_some {step : Step} {doc : Document} (history : List Step)
    (begins : step.document? = some doc) : begun (history ++ [step]) = begun history ++ [doc] := by
  simp [begun, begins]

/-- In a history on a fresh dispatcher, a run on `doc` was begun that minted `token`. -/
def MintedOn (options : StyleOptions) (history : List Step) (token : Token) (doc : Document) :
    Prop :=
  ∃ before step later, history = before ++ step :: later ∧ step.document? = some doc ∧
    (((new .empty options).after before).begin (some doc)).1.active = some token

/-- The state that a history leaves on a dispatcher with these style options. -/
structure WellKept (options : StyleOptions) (history : List Step) (dispatcher : Dispatcher) :
    Prop where
  minted_eq : dispatcher.minted = (begun history).length
  opens_length : dispatcher.panel.opens.length = dispatcher.minted
  /-- Only the very first opening takes the focus. -/
  opens_eq : dispatcher.panel.opens = [] ∨
    ∃ later, dispatcher.panel.opens = true :: List.replicate later false
  opened_iff : dispatcher.opened = true ↔ dispatcher.panel.opens ≠ []
  options_eq : dispatcher.options = options
  /-- A pending run is the latest one, and nothing but its progress note is shown. -/
  pending : ∀ token, dispatcher.active = some token → token = ⟨dispatcher.minted⟩ ∧
    ∃ doc, MintedOn options history token doc ∧ dispatcher.panel.entries = [.validating doc.path]

theorem MintedOn.concat {options : StyleOptions} {history : List Step} {token : Token}
    {doc : Document} (minted : MintedOn options history token doc) (step : Step) :
    MintedOn options (history ++ [step]) token doc := by
  obtain ⟨before, own, later, rfl, begins, active⟩ := minted
  exact ⟨before, own, later ++ [step], by simp, begins, active⟩

namespace WellKept

variable {options : StyleOptions} {history : List Step} {dispatcher : Dispatcher} {step : Step}

theorem nil (options : StyleOptions) : WellKept options [] (new .empty options) where
  minted_eq := rfl
  opens_length := rfl
  opens_eq := .inl rfl
  opened_iff := by simp [new, Panel.empty]
  options_eq := rfl
  pending := by simp [new]

theorem idle (kept : WellKept options history dispatcher) (idle : step.document? = none) :
    WellKept options (history ++ [step]) dispatcher where
  minted_eq := by rw [kept.minted_eq, begun_concat_of_none history idle]
  opens_length := kept.opens_length
  opens_eq := kept.opens_eq
  opened_iff := kept.opened_iff
  options_eq := kept.options_eq
  pending := by
    intro token active
    obtain ⟨latest, doc, minted, shown⟩ := kept.pending token active
    exact ⟨latest, doc, minted.concat step, shown⟩

/-- Once a run is settled, no run is pending, and of the panel only the entries have changed. -/
theorem settled (kept : WellKept options history dispatcher) (doc : Document)
    (conclusion : Conclusion) : WellKept options history (dispatcher.settled doc conclusion) where
  minted_eq := kept.minted_eq
  opens_length := kept.opens_length
  opens_eq := kept.opens_eq
  opened_iff := kept.opened_iff
  options_eq := kept.options_eq
  pending := by
    intro token active
    cases active

theorem started (kept : WellKept options history ((new .empty options).after history))
    {doc : Document} (begins : step.document? = some doc) :
    WellKept options (history ++ [step]) (((new .empty options).after history).started doc) := by
  generalize before : (new .empty options).after history = dispatcher at kept
  have opens : (dispatcher.started doc).panel.opens =
      dispatcher.panel.opens ++ [!dispatcher.opened] := rfl
  refine {
    minted_eq := ?_
    opens_length := ?_
    opens_eq := .inr ?_
    opened_iff := ?_
    options_eq := kept.options_eq
    pending := ?_ }
  · rw [minted_started, kept.minted_eq, begun_concat_of_some history begins, List.length_append]
    rfl
  · rw [opens, List.length_append, kept.opens_length]
    rfl
  · rw [opens]
    rcases kept.opens_eq with unopened | ⟨later, opened_first⟩
    · have closed : dispatcher.opened = false := by
        rw [← Bool.not_eq_true, kept.opened_iff, unopened]
        simp
      exact ⟨0, by rw [unopened, closed]; rfl⟩
    · have opened : dispatcher.opened = true := by
        rw [kept.opened_iff, opened_first]
        simp
      exact ⟨later + 1, by rw [opened_first, opened, List.replicate_succ', List.cons_append]; rfl⟩
  · rw [opens]
    simp [Dispatcher.started]
  · intro token active
    refine ⟨Option.some.inj (active.symm.trans (active_started ..)), doc, ?_, rfl⟩
    exact ⟨history, step, [], rfl, begins, by rw [before]; exact active⟩

theorem concat (kept : WellKept options history ((new .empty options).after history))
    (step : Step) :
    WellKept options (history ++ [step]) ((new .empty options).after (history ++ [step])) := by
  rw [after_append, after_cons, after_nil]
  rcases step_cases ((new .empty options).after history) step with
    ⟨idle, same⟩ | ⟨idle, doc, conclusion, same⟩ | ⟨doc, begins, same | ⟨conclusion, same⟩⟩
  · rw [same]
    exact kept.idle idle
  · rw [same]
    exact (kept.idle idle).settled doc conclusion
  · rw [same]
    exact kept.started begins
  · rw [same]
    exact (kept.started begins).settled doc conclusion

end WellKept

/-- After any history on a fresh dispatcher, the panel has been opened once for each run begun on a
    document, with the focus the first time only; the latest token is numbered by those runs; and if
    a run is pending it is the latest, with its progress note alone on the panel. -/
theorem wellKept_after (options : StyleOptions) (history : List Step) :
    WellKept options history ((new .empty options).after history) := by
  induction history using List.reverseRecOn with
  | nil => exact WellKept.nil options
  | append_singleton before step ih => exact ih.concat step

/-- Whether a step that returned this reply was a stale completion or given no document. -/
def isIdle : Step × Reply → Bool
  | (.complete .., .status .stale) | (.begin none, _) | (.validate none _, _) => true
  | _ => false

theorem isIdle_complete_iff {doc : Document} {invocation : Invocation} {outcome : Outcome}
    {status : Status} :
    isIdle (.complete doc invocation outcome, .status status) ↔ status = .stale := by
  cases status <;> simp [isIdle]

theorem step_of_isIdle {dispatcher : Dispatcher} {step : Step}
    (idle : isIdle (step, (dispatcher.step step).2)) : (dispatcher.step step).1 = dispatcher := by
  cases step with
  | begin document | validate document services =>
      cases document with
      | none => rfl
      | some doc => cases idle
  | complete doc invocation outcome =>
      have stale : (dispatcher.complete doc invocation outcome).2 = .stale :=
        isIdle_complete_iff.mp idle
      have passive : dispatcher.active ≠ some invocation.token := by
        intro active
        exact complete_ne_stale_iff.mpr active stale
      exact congrArg Prod.fst (complete_of_not_active passive)

theorem run_cons (dispatcher : Dispatcher) (first : Step) (rest : List Step) :
    dispatcher.run (first :: rest) =
      (((dispatcher.step first).1.run rest).1,
        (dispatcher.step first).2 :: ((dispatcher.step first).1.run rest).2) := rfl

/-- Taken out of a history, the steps that returned stale or were given no document are not missed:
    each other step returns what it returned before, and the state at the end is the same. -/
theorem run_without_idle (dispatcher : Dispatcher) (history : List Step) :
    let kept := (history.zip (dispatcher.run history).2).filter (!isIdle ·)
    (dispatcher.run history).2.length = history.length ∧
      dispatcher.run (kept.map Prod.fst) = (dispatcher.after history, kept.map Prod.snd) := by
  induction history generalizing dispatcher with
  | nil => exact ⟨rfl, rfl⟩
  | cons first rest ih =>
      obtain ⟨length, shortened⟩ := ih (dispatcher.step first).1
      rw [run_cons, after_cons]
      refine ⟨congrArg Nat.succ length, ?_⟩
      cases idle : isIdle (first, (dispatcher.step first).2) with
      | true =>
          rw [step_of_isIdle idle] at shortened ⊢
          simpa [idle] using shortened
      | false =>
          simp only [List.zip_cons_cons, idle, Bool.not_false, List.filter_cons_of_pos,
            List.map_cons]
          rw [run_cons, shortened]

end Dispatcher

end PageCheck
