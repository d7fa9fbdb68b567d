import PageCheck.Proofs.Dispatch.Bookkeeping

/-! # The last run wins

What the panel shows after a history is read off two of its halves alone: the last beginning and,
among what comes later, the first completion with the token of that beginning. All other halves,
whatever they are and in whatever order they come, leave no trace on the panel. What that completion
leaves there is said by its document, its target and what its service came back with.
-/

namespace PageCheck

/-- The last beginning among some halves: its document, and the halves that come later. -/
def lastBegin? : List Half → Option (Document × List Half)
  | [] => none
  | .begin doc :: later => some ((lastBegin? later).getD (doc, later))
  | .complete .. :: later => lastBegin? later

/-- The first completion with a token. -/
def firstCompletion? (token : Token) : List Half → Option (Document × Invocation × Outcome)
  | [] => none
  | .begin _ :: later => firstCompletion? token later
  | .complete doc invocation outcome :: later =>
      if invocation.token = token then some (doc, invocation, outcome)
      else firstCompletion? token later

/-- No run begins among these halves. -/
def Quiet (halves : List Half) : Prop :=
  ∀ half ∈ halves, half.isBegin = false

namespace Quiet

variable {half : Half} {halves : List Half}

theorem tail (quiet : Quiet (half :: halves)) : Quiet halves :=
  (List.forall_mem_cons.mp quiet).2

theorem not_begin {doc : Document} : ¬ Quiet (.begin doc :: halves) := by
  intro quiet
  cases (List.forall_mem_cons.mp quiet).1

theorem countP_eq_zero (quiet : Quiet halves) : halves.countP Half.isBegin = 0 := by
  rw [List.countP_eq_zero]
  intro half member
  simp [quiet half member]

end Quiet

theorem lastBegin?_eq_none_iff {halves : List Half} : lastBegin? halves = none ↔ Quiet halves := by
  induction halves with
  | nil => simp [lastBegin?, Quiet]
  | cons half rest ih =>
      unfold Quiet at ih ⊢
      cases half <;> simp [lastBegin?, Half.isBegin, ih]

theorem lastBegin?_eq_some {halves later : List Half} {doc : Document}
    (last : lastBegin? halves = some (doc, later)) :
    (∃ before, halves = before ++ .begin doc :: later) ∧ Quiet later := by
  induction halves with
  | nil => simp [lastBegin?] at last
  | cons half rest ih =>
      cases half with
      | complete completed invocation outcome =>
          -- A completion only moves the last beginning one place further away.
          obtain ⟨⟨before, rfl⟩, quiet⟩ := ih last
          exact ⟨⟨.complete completed invocation outcome :: before, rfl⟩, quiet⟩
      | begin first =>
          cases tail : lastBegin? rest with
          | none =>
              simp only [lastBegin?, tail, Option.getD_none, Option.some.injEq,
                Prod.mk.injEq] at last
              obtain ⟨rfl, rfl⟩ := last
              exact ⟨⟨[], rfl⟩, lastBegin?_eq_none_iff.mp tail⟩
          | some found =>
              simp only [lastBegin?, tail, Option.getD_some] at last
              obtain ⟨⟨before, rfl⟩, quiet⟩ := ih (tail.trans last)
              exact ⟨⟨.begin first :: before, rfl⟩, quiet⟩

theorem firstCompletion?_eq_none_iff {token : Token} {halves : List Half} :
    firstCompletion? token halves = none ↔ ∀ half ∈ halves, half.token? ≠ some token := by
  induction halves with
  | nil => simp [firstCompletion?]
  | cons half rest ih =>
      cases half with
      | begin doc => simp [firstCompletion?, Half.token?, ih]
      | complete doc invocation outcome =>
          by_cases same : invocation.token = token <;>
            simp [firstCompletion?, Half.token?, same, ih]

/-- What a completion on `doc` makes of the entries that were shown, by its target and by what the
    service came back with: the text of a failure, the complaint about a foreign result, a remark
    below what was there, or a report. -/
inductive Outcome.Yields (target : Target) (doc : Document) (shown : List Entry) :
    Outcome → List Entry → Prop where
  | failure {outcome : Outcome} {failure : Failure} (failed : outcome.failure? = some failure) :
      Yields target doc shown outcome [.hardFailure failure.message]
  | foreign {outcome : Outcome} (answered : outcome.failure? = none)
      (foreign : outcome.source ≠ target) :
      Yields target doc shown outcome [.hardFailure
        (target.name ++ " validation completed with a result from another validator")]
  | silent (page : target = .html) :
      Yields target doc shown (.markup (.ok ⟨none⟩)) (shown ++ [.emptyResult])
  | report {outcome : Outcome} {diagnostics : List Diagnostic}
      (result : outcome.IsResultFor target diagnostics) :
      Yields target doc shown outcome (Report.build doc diagnostics).entries

theorem Outcome.yields_iff {target : Target} {doc : Document} {shown entries : List Entry}
    {outcome : Outcome} :
    Yields target doc shown outcome entries ↔
      (outcome.conclusion target).entries doc shown = entries := by
  constructor
  · rintro (failed | ⟨answered, foreign⟩ | page | result)
    · rw [conclusion_of_failure failed]
      rfl
    · rw [conclusion_of_foreign answered foreign]
      rfl
    · rw [page]
      rfl
    · rw [conclusion_of_isResultFor result]
      rfl
  · rintro rfl
    cases answered : outcome.failure? with
    | some failure =>
        rw [conclusion_of_failure answered]
        exact .failure answered
    | none =>
        by_cases own : outcome.source = target
        · subst own
          rcases empty_or_isResultFor answered with rfl | ⟨diagnostics, result⟩
          · exact .silent rfl
          · rw [conclusion_of_isResultFor result]
            exact .report result
        · rw [conclusion_of_foreign answered own]
          exact .foreign answered own

/-- What the panel shows after some halves on a fresh dispatcher. Tokens are numbered in the order
    of the beginnings, so that the number of all beginnings is the token of the last one. -/
inductive LastRunShows (halves : List Half) : List Entry → Prop where
  /-- No run has begun. -/
  | nothing (quiet : lastBegin? halves = none) : LastRunShows halves []
  /-- The last run has not come back. -/
  | pending {begun : Document} {later : List Half} (last : lastBegin? halves = some (begun, later))
      (waiting : firstCompletion? ⟨halves.countP Half.isBegin⟩ later = none) :
      LastRunShows halves [.validating begun.path]
  /-- The last run has come back, and this completion was its first. -/
  | ended {begun doc : Document} {later : List Half} {invocation : Invocation} {outcome : Outcome}
      {entries : List Entry} (last : lastBegin? halves = some (begun, later))
      (first : firstCompletion? ⟨halves.countP Half.isBegin⟩ later =
        some (doc, invocation, outcome))
      (yields : outcome.Yields invocation.target doc [.validating begun.path] entries) :
      LastRunShows halves entries

theorem LastRunShows.unique {halves : List Half} {entries others : List Entry}
    (shown : LastRunShows halves entries) (likewise : LastRunShows halves others) :
    entries = others := by
  cases shown with
  | nothing quiet =>
      cases likewise with
      | nothing => rfl
      | pending last | ended last => cases quiet.symm.trans last
  | pending last waiting =>
      cases likewise with
      | nothing quiet => cases last.symm.trans quiet
      | pending again =>
          cases last.symm.trans again
          rfl
      | ended again first =>
          cases last.symm.trans again
          cases waiting.symm.trans first
  | ended last first yields =>
      cases likewise with
      | nothing quiet => cases last.symm.trans quiet
      | pending again waiting =>
          cases last.symm.trans again
          cases waiting.symm.trans first
      | ended again second others =>
          cases last.symm.trans again
          cases first.symm.trans second
          rw [← Outcome.yields_iff.mp yields, Outcome.yields_iff.mp others]

/-- The halves of a run from beginning to end: without a service that judges the document, it only
    begins. -/
def wholeRun (token : Token) (options : StyleOptions) (doc : Document) (services : Services) :
    List Half :=
  match doc.target with
  | .html =>
    [.begin doc, .complete doc ⟨token, .html, .markup doc.text⟩
      (.markup (services.markup doc.text))]
  | .css =>
    [.begin doc, .complete doc ⟨token, .css, .style doc.text options⟩
      (.style (services.style doc.text options))]
  | .unsupported => [.begin doc]

namespace Dispatcher

theorem play_of_idle {dispatcher : Dispatcher} {halves : List Half}
    (quiet : Quiet halves) (idle : dispatcher.active = none) :
    dispatcher.play halves = dispatcher := by
  induction halves with
  | nil => rfl
  | cons half rest ih =>
      cases half with
      | begin doc => exact absurd quiet Quiet.not_begin
      | complete doc invocation outcome =>
          rw [play_complete, complete_of_not_active (by simp [idle])]
          exact ih quiet.tail

/-- With a pending run, the first completion with its token settles it. Those before it carry
    other tokens, and those after it meet no pending run. -/
theorem play_of_pending {dispatcher : Dispatcher} {token : Token} {halves : List Half}
    (quiet : Quiet halves) (pending : dispatcher.active = some token) :
    dispatcher.play halves = match firstCompletion? token halves with
      | none => dispatcher
      | some (doc, invocation, outcome) =>
          dispatcher.settled doc (outcome.conclusion invocation.target) := by
  induction halves with
  | nil => rfl
  | cons half rest ih =>
      cases half with
      | begin doc => exact absurd quiet Quiet.not_begin
      | complete doc invocation outcome =>
          rw [play_complete]
          by_cases own : invocation.token = token
          · have active : dispatcher.active = some invocation.token := by rw [pending, own]
            rw [complete_of_active active, play_of_idle quiet.tail (active_settled ..)]
            simp only [firstCompletion?, own, if_true]
          · have foreign : dispatcher.active ≠ some invocation.token := by
              intro active
              exact own (Option.some.inj (active.symm.trans pending))
            rw [complete_of_not_active foreign, ih quiet.tail]
            simp only [firstCompletion?, own, if_false]

/-- The state after some halves, by the last beginning among them and by the first later completion
    with its token. -/
theorem play_of_lastBegin (dispatcher : Dispatcher) {halves later : List Half} {doc : Document}
    (last : lastBegin? halves = some (doc, later)) :
    ∃ before, halves = before ++ .begin doc :: later ∧
      (dispatcher.play before).minted + 1 = dispatcher.minted + halves.countP Half.isBegin ∧
      dispatcher.play halves =
        match firstCompletion? ⟨dispatcher.minted + halves.countP Half.isBegin⟩ later with
        | none => (dispatcher.play before).started doc
        | some (completed, invocation, outcome) =>
            ((dispatcher.play before).started doc).settled completed
              (outcome.conclusion invocation.target) := by
  obtain ⟨⟨before, rfl⟩, quiet⟩ := lastBegin?_eq_some last
  have numbered : (dispatcher.play before).minted + 1 =
      dispatcher.minted + (before ++ .begin doc :: later).countP Half.isBegin := by
    rw [List.countP_append, List.countP_cons_of_pos rfl, quiet.countP_eq_zero, minted_play]
    omega
  refine ⟨before, rfl, numbered, ?_⟩
  rw [← numbered, play_append, play_begin]
  exact play_of_pending quiet (active_started ..)

theorem active_play_iff_of_lastBegin {dispatcher : Dispatcher} {halves later : List Half}
    {doc : Document} {token : Token} (last : lastBegin? halves = some (doc, later)) :
    (dispatcher.play halves).active = some token ↔
      token = ⟨dispatcher.minted + halves.countP Half.isBegin⟩ ∧
        firstCompletion? token later = none := by
  obtain ⟨before, -, numbered, played⟩ := play_of_lastBegin dispatcher last
  rw [played]
  generalize latest : Token.mk (dispatcher.minted + halves.countP Half.isBegin) = minted
  cases completed : firstCompletion? minted later with
  | none =>
      rw [active_started, numbered, latest, Option.some.injEq]
      constructor
      · rintro rfl
        exact ⟨rfl, completed⟩
      · rintro ⟨rfl, -⟩
        rfl
  | some completion =>
      simp only [active_settled, reduceCtorEq, false_iff, not_and]
      rintro rfl
      simp [completed]

/-- A pending run has its progress note on the panel and nothing else. -/
theorem Reachable.entries_of_active {dispatcher : Dispatcher} {token : Token}
    (reachable : dispatcher.Reachable) (active : dispatcher.active = some token) :
    ∃ begun, dispatcher.panel.entries = [.validating begun] := by
  obtain ⟨options, history, rfl⟩ := reachable
  rw [← play_halves] at active ⊢
  generalize (new .empty options).halves history = halves at active ⊢
  cases last : lastBegin? halves with
  | none =>
      rw [play_of_idle (lastBegin?_eq_none_iff.mp last) rfl] at active
      cases active
  | some found =>
      obtain ⟨doc, later⟩ := found
      obtain ⟨rfl, untouched⟩ := (active_play_iff_of_lastBegin last).mp active
      obtain ⟨before, -, -, played⟩ := play_of_lastBegin (new .empty options) last
      rw [untouched] at played
      exact ⟨doc.path, by rw [played, entries_started]⟩

theorem halvesOf_validate (dispatcher : Dispatcher) (doc : Document) (services : Services) :
    dispatcher.halvesOf (.validate (some doc) services) =
      wholeRun ⟨dispatcher.minted + 1⟩ dispatcher.options doc services := by
  cases judge : doc.target <;>
    simp [halvesOf, wholeRun, begin_some, request?, judge, Services.answer]

theorem lastRunShows_play (options : StyleOptions) (halves : List Half) :
    LastRunShows halves ((new .empty options).play halves).panel.entries := by
  cases last : lastBegin? halves with
  | none =>
      rw [play_of_idle (lastBegin?_eq_none_iff.mp last) rfl]
      exact .nothing last
  | some found =>
      obtain ⟨begun, later⟩ := found
      obtain ⟨before, -, -, played⟩ := play_of_lastBegin (new .empty options) last
      rw [played, minted_new, Nat.zero_add]
      cases first : firstCompletion? ⟨halves.countP Half.isBegin⟩ later with
      | none => exact .pending last first
      | some completion => exact .ended last first (Outcome.yields_iff.mpr rfl)

/-- After any history on a fresh dispatcher, the panel shows what the last run left there: nothing
    if no run has begun, its progress note alone while its token has not come back, and otherwise
    what its first completion makes of that note. The token of a run is its number among all that
    have begun, and a run from beginning to end is completed at once, if a service judges its
    document. -/
theorem entries_after_iff (options : StyleOptions) (history : List Step) :
    let fresh := new .empty options
    (∀ entries, (fresh.after history).panel.entries = entries ↔
      LastRunShows (fresh.halves history) entries) ∧
    (∀ before later doc invocation, fresh.halves history = before ++ .begin doc :: later →
      ((fresh.play before).begin (some doc)).2 = some invocation →
        invocation.token = ⟨before.countP Half.isBegin + 1⟩ ∧ invocation.target = doc.target) ∧
    ∀ doc services, (fresh.after history).halvesOf (.validate (some doc) services) =
      wholeRun ⟨(fresh.halves history).countP Half.isBegin + 1⟩ options doc services := by
  intro fresh
  have shown : LastRunShows (fresh.halves history) (fresh.after history).panel.entries := by
    rw [← play_halves]
    exact lastRunShows_play options _
  refine ⟨?_, ?_, ?_⟩
  · intro entries
    constructor
    · rintro rfl
      exact shown
    · exact shown.unique
  · intro before later doc invocation _ returned
    rw [token_of_begin returned, minted_play, minted_new, Nat.zero_add]
    exact ⟨rfl, target_of_begin returned⟩
  · intro doc services
    have minted : (fresh.after history).minted = (fresh.halves history).countP Half.isBegin := by
      rw [← play_halves, minted_play, minted_new, Nat.zero_add]
    rw [halvesOf_validate, minted, (wellKept_after options history).options_eq]

/-- Overlapping runs, of which one is completed too late and one twice: the last of two fails, the
    next is answered without messages, then one runs from beginning to end with an error to report,
    one gets the result of the other service, and one that no service judges never ends. -/
def overlapping : List Step :=
  let page : Document := ⟨"index.html", "<p>", "text.html.basic"⟩
  let notes : Document := ⟨"notes.md", "", "source.gfm"⟩
  let clean : Outcome := .markup (.ok ⟨some []⟩)
  let services : Services :=
    ⟨fun _ => .ok ⟨some [{ kind := "error", lastLine := some 1 }]⟩, fun _ _ => .ok {}⟩
  [.begin (some page), .begin (some page),
    .complete page ⟨⟨1⟩, .html, .markup "<p>"⟩ clean,
    .complete page ⟨⟨2⟩, .html, .markup "<p>"⟩ (.markup (.error (.service "down"))),
    .complete page ⟨⟨2⟩, .css, .markup "<p>"⟩ clean, .begin (some page),
    .complete page ⟨⟨3⟩, .html, .markup "<p>"⟩ (.markup (.ok ⟨none⟩)),
    .validate (some page) services, .begin (some page),
    .complete page ⟨⟨5⟩, .html, .markup "<p>"⟩ (.style (.ok {})),
    .begin (some notes), .complete notes ⟨⟨1⟩, .html, .markup "<p>"⟩ clean]

theorem entries_after_overlapping :
    let page : Document := ⟨"index.html", "<p>", "text.html.basic"⟩
    let shown := fun steps => ((new .empty {}).after (overlapping.take steps)).panel.entries
    shown 0 = [] ∧ shown 3 = [.validating "index.html"] ∧ shown 5 = [.hardFailure "down"] ∧
      shown 7 = [.validating "index.html", .emptyResult] ∧
      shown 8 = [.plain (summaryLine "index.html" 1 0) none .plain,
        .finding (some 1) none "" "<p>" .error] ∧
      shown 10 = [.hardFailure "Html validation completed with a result from another validator"] ∧
      shown 12 = [.validating "notes.md"] ∧
      ∃ second, (((new .empty {}).play [.begin page]).begin (some page)).2 = some second ∧
        second.token = ⟨2⟩ ∧ second.target = .html := by
  intro page shown
  let halves (steps : Nat) : List Half := (new .empty {}).halves (overlapping.take steps)
  have read (steps : Nat) (entries : List Entry) :
      shown steps = entries ↔ LastRunShows (halves steps) entries :=
    (entries_after_iff {} (overlapping.take steps)).1 entries
  have second : (((new .empty {}).play [.begin page]).begin (some page)).2 =
      some ⟨⟨2⟩, .html, .markup "<p>"⟩ := by decide +kernel
  refine ⟨?_, ?_, ?_, ?_, ?_, ?_, ?_, _, second, ?_⟩
  · exact (read 0 _).mpr (.nothing rfl)
  · have last : lastBegin? (halves 3) = some (page, (halves 3).drop 2) := rfl
    exact (read 3 _).mpr (.pending last (by decide +kernel))
  · let down : Outcome := .markup (.error (.service "down"))
    have last : lastBegin? (halves 5) = some (page, (halves 5).drop 2) := rfl
    have first : firstCompletion? ⟨2⟩ ((halves 5).drop 2) = some (page,
        ⟨⟨2⟩, .html, .markup "<p>"⟩, down) := rfl
    have failed : down.failure? = some (.service "down") := rfl
    exact (read 5 _).mpr (.ended last first (.failure failed))
  · have last : lastBegin? (halves 7) = some (page, (halves 7).drop 6) := rfl
    have first : firstCompletion? ⟨3⟩ ((halves 7).drop 6) = some (page,
        ⟨⟨3⟩, .html, .markup "<p>"⟩, .markup (.ok ⟨none⟩)) := rfl
    exact (read 7 _).mpr (.ended last first (.silent rfl))
  · let items : List MarkupMessage := [{ kind := "error", lastLine := some 1 }]
    have last : lastBegin? (halves 8) = some (page, (halves 8).drop 8) := rfl
    have first : firstCompletion? ⟨4⟩ ((halves 8).drop 8) = some (page,
        ⟨⟨4⟩, .html, .markup "<p>"⟩, .markup (.ok ⟨some items⟩)) := rfl
    have built : (Report.build page (markupDiagnostics items)).entries =
        [.plain (summaryLine "index.html" 1 0) none .plain,
          .finding (some 1) none "" "<p>" .error] := by decide +kernel
    exact (read 8 _).mpr (.ended last first (built ▸ .report (.html items)))
  · have last : lastBegin? (halves 10) = some (page, (halves 10).drop 10) := rfl
    have first : firstCompletion? ⟨5⟩ ((halves 10).drop 10) = some (page,
        ⟨⟨5⟩, .html, .markup "<p>"⟩, .style (.ok {})) := rfl
    exact (read 10 _).mpr (.ended last first (.foreign rfl (by decide)))
  · let notes : Document := ⟨"notes.md", "", "source.gfm"⟩
    have last : lastBegin? (halves 12) = some (notes, (halves 12).drop 12) := rfl
    exact (read 12 _).mpr (.pending last (by decide +kernel))
  · have judged : page.target = .html := by decide +kernel
    obtain ⟨token, target⟩ :=
      (entries_after_iff {} (overlapping.take 4)).2.1 [.begin page] _ page _ rfl second
    exact ⟨token, target.trans judged⟩

end Dispatcher

end PageCheck
