import Mathlib.Algebra.Group.Nat.Defs
import Mathlib.Data.List.Induction
import PageCheck.Proofs.Dispatch.LastRun

/-! # Tokens and commits

A run writes at most once. Tokens are minted in increasing order, and of the completions that carry
a token only the first can write, and only while no later run has begun.

The completions of a history carry tokens of invocations that beginnings have returned. A beginning
on a document that no service judges returns none, so its token is minted but carried by nobody.
Token numbers are unbounded here, and those of fewer than `2 ^ 64` runs fit a machine word.
-/

namespace PageCheck

namespace Dispatcher

/-- The token that a step carries, if it is a completion. -/
def Step.token? : Step → Option Token
  | .complete _ invocation _ => some invocation.token
  | _ => none

/-- The tokens that the beginnings among some halves make active, oldest first. -/
def mints (dispatcher : Dispatcher) : List Half → List Token
  | [] => []
  | .begin doc :: rest =>
      (dispatcher.begin (some doc)).1.active.toList ++ (dispatcher.begin (some doc)).1.mints rest
  | .complete doc invocation outcome :: rest =>
      (dispatcher.complete doc invocation outcome).1.mints rest

/-- The tokens of the invocations that the beginnings among some halves return, oldest first. -/
def issues (dispatcher : Dispatcher) : List Half → List Token
  | [] => []
  | .begin doc :: rest =>
      ((dispatcher.begin (some doc)).2.map Invocation.token).toList ++
        (dispatcher.begin (some doc)).1.issues rest
  | .complete doc invocation outcome :: rest =>
      (dispatcher.complete doc invocation outcome).1.issues rest

/-- Each completion in a history carries the token of an invocation that was returned before it.
    Its document, target, request and outcome may be any. -/
def Genuine (dispatcher : Dispatcher) (history : List Step) : Prop :=
  ∀ place, ∀ inside : place < history.length, ∀ token ∈ history[place].token?,
    token ∈ dispatcher.issues (dispatcher.halves (history.take place))

instance (dispatcher : Dispatcher) (history : List Step) :
    Decidable (dispatcher.Genuine history) :=
  inferInstanceAs (Decidable (∀ place, ∀ _ : place < history.length, _))

/-- Each completion among some halves carries the token of an invocation returned before it. -/
def Issued (dispatcher : Dispatcher) (halves : List Half) : Prop :=
  ∀ before later doc invocation outcome,
    halves = before ++ .complete doc invocation outcome :: later →
      invocation.token ∈ dispatcher.issues before

/-- How often completions commit, when some halves are taken from a fresh dispatcher. -/
structure CommitsOnce (fresh : Dispatcher) (halves : List Half) : Prop where
  /-- No token is minted twice. -/
  increasing : (fresh.mints halves).Pairwise (·.number < ·.number)
  bounded : ∀ token ∈ fresh.mints halves, token.number < 2 ^ 64
  /-- What a beginning returns carries the token that it has minted. -/
  own_token : ∀ before later doc invocation, halves = before ++ .begin doc :: later →
    ((fresh.play before).begin (some doc)).2 = some invocation →
    (fresh.mints (before ++ [.begin doc])).getLast? = some invocation.token
  /-- A completion commits just if it carries the latest token and is the first to do so. -/
  commits_iff : ∀ before later doc invocation outcome,
    halves = before ++ .complete doc invocation outcome :: later →
    (((fresh.play before).complete doc invocation outcome).2 ≠ .stale ↔
      (fresh.mints before).getLast? = some invocation.token ∧
        ∀ half ∈ before, half.token? ≠ some invocation.token)
  /-- Of two completions with one token the second commits nothing. -/
  once : ∀ before between later firstDoc first firstOutcome doc invocation outcome,
    halves = before ++ .complete firstDoc first firstOutcome :: between ++
      .complete doc invocation outcome :: later →
    first.token = invocation.token →
    ((fresh.play (before ++ .complete firstDoc first firstOutcome :: between)).complete doc
      invocation outcome).2 = .stale
  /-- A beginning without an invocation still supersedes the pending run. -/
  superseded : ∀ before between later begun doc invocation outcome,
    halves = before ++ .begin begun :: between ++ .complete doc invocation outcome :: later →
    begun.target = .unsupported → Quiet between →
    ((fresh.play before).begin (some begun)).2 = none ∧
      ((fresh.play (before ++ .begin begun :: between)).complete doc invocation outcome).2 = .stale

theorem mints_eq_range (dispatcher : Dispatcher) (halves : List Half) :
    dispatcher.mints halves =
      (List.range' (dispatcher.minted + 1) (halves.countP Half.isBegin)).map Token.mk := by
  induction halves generalizing dispatcher with
  | nil => rfl
  | cons half rest ih =>
      cases half with
      | begin doc =>
          rw [mints, ih, List.countP_cons_of_pos rfl, List.range'_succ, List.map_cons]
          rfl
      | complete doc invocation outcome =>
          rw [mints, ih, minted_complete, List.countP_cons_of_neg (by simp [Half.isBegin])]

theorem mem_mints_iff {dispatcher : Dispatcher} {halves : List Half} {token : Token} :
    token ∈ dispatcher.mints halves ↔ dispatcher.minted < token.number ∧
      token.number ≤ dispatcher.minted + halves.countP Half.isBegin := by
  rw [mints_eq_range, List.mem_map]
  constructor
  · rintro ⟨number, member, rfl⟩
    rw [List.mem_range'_1] at member
    simp only
    omega
  · rintro ⟨above, below⟩
    refine ⟨token.number, ?_, rfl⟩
    rw [List.mem_range'_1]
    omega

theorem getLast?_mints {options : StyleOptions} {halves : List Half} {token : Token} :
    ((new .empty options).mints halves).getLast? = some token ↔
      0 < halves.countP Half.isBegin ∧ token = ⟨halves.countP Half.isBegin⟩ := by
  rw [mints_eq_range]
  cases halves.countP Half.isBegin with
  | zero => simp
  | succ count =>
      rw [List.getLast?_map, List.range'_concat, List.getLast?_concat]
      simp [Nat.add_comm, eq_comm]

theorem pairwise_mints (dispatcher : Dispatcher) (halves : List Half) :
    (dispatcher.mints halves).Pairwise (·.number < ·.number) := by
  rw [mints_eq_range, List.pairwise_map]
  exact List.pairwise_lt_range'

theorem issues_append (dispatcher : Dispatcher) (before later : List Half) :
    dispatcher.issues (before ++ later) =
      dispatcher.issues before ++ (dispatcher.play before).issues later := by
  induction before generalizing dispatcher with
  | nil => rfl
  | cons half rest ih =>
      cases half with
      | begin doc => simp [issues, begin_some, ih]
      | complete doc invocation outcome => simp [issues, ih]

theorem mints_of_issues {dispatcher : Dispatcher} {halves : List Half} {token : Token}
    (issued : token ∈ dispatcher.issues halves) : token ∈ dispatcher.mints halves := by
  induction halves generalizing dispatcher with
  | nil => simp [issues] at issued
  | cons half rest ih =>
      cases half with
      | complete doc invocation outcome => exact ih issued
      | begin doc =>
          simp only [issues, begin_some, List.mem_append] at issued
          rcases issued with own | later
          · have minted : token = ⟨dispatcher.minted + 1⟩ := by
              cases asked : dispatcher.request? doc with
              | none => simp [asked] at own
              | some request => simpa [asked] using own
            simp [mints, begin_some, minted]
          · exact List.mem_append_right _ (ih later)

namespace Issued

variable {dispatcher : Dispatcher} {before later : List Half}

theorem of_append (issued : dispatcher.Issued (before ++ later)) : dispatcher.Issued before := by
  rintro earlier between doc invocation outcome rfl
  exact issued earlier (between ++ later) doc invocation outcome (by simp)

theorem nil : dispatcher.Issued [] := by
  intro before later doc invocation outcome split
  simp at split

theorem concat {half : Half} (issued : dispatcher.Issued before)
    (known : ∀ token ∈ half.token?, token ∈ dispatcher.issues before) :
    dispatcher.Issued (before ++ [half]) := by
  intro earlier between doc invocation outcome split
  rcases List.eq_nil_or_concat between with rfl | ⟨middle, last, rfl⟩
  · obtain ⟨rfl, same⟩ := List.append_inj' split rfl
    obtain rfl := List.singleton_inj.mp same
    exact known invocation.token rfl
  · have regrouped : before ++ [half] =
        (earlier ++ .complete doc invocation outcome :: middle) ++ [last] := by
      simpa using split
    obtain ⟨rfl, -⟩ := List.append_inj' regrouped rfl
    exact issued earlier middle doc invocation outcome rfl

theorem number_le {halves : List Half} {half : Half} {token : Token}
    (issued : dispatcher.Issued halves) (member : half ∈ halves)
    (carried : half.token? = some token) :
    token.number ≤ dispatcher.minted + halves.countP Half.isBegin := by
  obtain ⟨before, later, rfl⟩ := List.append_of_mem member
  cases half with
  | begin doc => cases carried
  | complete doc invocation outcome =>
      obtain rfl := Option.some.inj carried
      have known := mints_of_issues (issued before later doc invocation outcome rfl)
      have minted := (mem_mints_iff.mp known).2
      rw [List.countP_append]
      omega

end Issued

namespace Genuine

variable {dispatcher : Dispatcher} {before later : List Step}

theorem of_append (genuine : dispatcher.Genuine (before ++ later)) :
    dispatcher.Genuine before := by
  intro place inside token carried
  have wider : place < (before ++ later).length := by
    rw [List.length_append]
    omega
  have issued := genuine place wider token (by rwa [List.getElem_append_left inside])
  rwa [List.take_append_of_le_length (Nat.le_of_lt inside)] at issued

theorem last_issued {step : Step} (genuine : dispatcher.Genuine (before ++ [step])) :
    ∀ token ∈ step.token?, token ∈ dispatcher.issues (dispatcher.halves before) := by
  intro token carried
  simpa using genuine before.length (by simp) token (by simpa using carried)

/-- The completion that belongs to `validate` carries the token that its own beginning has
    returned, so that a history is genuine throughout if its explicit completions are. -/
theorem issued {history : List Step} (genuine : dispatcher.Genuine history) :
    dispatcher.Issued (dispatcher.halves history) := by
  induction history using List.reverseRecOn with
  | nil => exact Issued.nil
  | append_singleton before step ih =>
      have early := ih genuine.of_append
      have known := genuine.last_issued
      rw [halves_append, halves, halves, List.append_nil]
      cases step with
      | complete doc invocation outcome => exact early.concat known
      | begin document =>
          cases document with
          | none => simpa [halvesOf] using early
          | some doc => exact early.concat (by simp [Half.token?])
      | validate document services =>
          cases document with
          | none => simpa [halvesOf] using early
          | some doc =>
              -- The completion of its own comes right after the beginning that returns its token.
              have begun : dispatcher.Issued (dispatcher.halves before ++ [.begin doc]) :=
                early.concat (by simp [Half.token?])
              cases returned : ((dispatcher.after before).begin (some doc)).2 with
              | none => simpa [halvesOf, returned] using begun
              | some invocation =>
                  have own : invocation.token ∈
                      dispatcher.issues (dispatcher.halves before ++ [.begin doc]) := by
                    rw [issues_append, play_halves, issues, returned]
                    simp
                  have completed : dispatcher.Issued (dispatcher.halves before ++ [.begin doc] ++
                      [.complete doc invocation (services.answer invocation.request)]) := by
                    apply begun.concat
                    rintro token ⟨⟩
                    exact own
                  simpa [halvesOf, returned] using completed

end Genuine

/-- Only completions after the last beginning can carry its token. -/
theorem untouched_iff {dispatcher : Dispatcher} {before later : List Half} {doc : Document}
    {token : Token} (issued : dispatcher.Issued (before ++ .begin doc :: later))
    (latest : token.number =
      dispatcher.minted + (before ++ .begin doc :: later).countP Half.isBegin) :
    (∀ half ∈ before ++ .begin doc :: later, half.token? ≠ some token) ↔
      firstCompletion? token later = none := by
  rw [firstCompletion?_eq_none_iff]
  constructor
  · intro absent half member
    exact absent half (by simp [member])
  · intro absent half member carried
    rcases List.mem_append.mp member with early | rest
    -- What comes before the beginning can only carry an earlier token.
    · have known := issued.of_append.number_le early carried
      rw [List.countP_append, List.countP_cons_of_pos rfl] at latest
      omega
    · rcases List.mem_cons.mp rest with rfl | late
      · simp [Half.token?] at carried
      · exact absent half late carried

/-- A token is active just if it is the latest one and no completion has carried it yet. -/
theorem active_play_iff {options : StyleOptions} {halves : List Half} {token : Token}
    (issued : (new .empty options).Issued halves) :
    ((new .empty options).play halves).active = some token ↔
      ((new .empty options).mints halves).getLast? = some token ∧
        ∀ half ∈ halves, half.token? ≠ some token := by
  rw [getLast?_mints]
  cases last : lastBegin? halves with
  | none =>
      have quiet := lastBegin?_eq_none_iff.mp last
      rw [play_of_idle quiet rfl, quiet.countP_eq_zero]
      simp
  | some found =>
      obtain ⟨doc, later⟩ := found
      obtain ⟨⟨before, rfl⟩, -⟩ := lastBegin?_eq_some last
      have begun : 0 < (before ++ .begin doc :: later).countP Half.isBegin := by
        rw [List.countP_append, List.countP_cons_of_pos rfl]
        omega
      rw [active_play_iff_of_lastBegin last, minted_new, Nat.zero_add]
      constructor
      · rintro ⟨rfl, untouched⟩
        exact ⟨⟨begun, rfl⟩, (untouched_iff issued (by simp)).mpr untouched⟩
      · rintro ⟨⟨-, rfl⟩, untouched⟩
        exact ⟨rfl, (untouched_iff issued (by simp)).mp untouched⟩

theorem issues_of_quiet {dispatcher : Dispatcher} {halves : List Half} (quiet : Quiet halves) :
    dispatcher.issues halves = [] := by
  induction halves generalizing dispatcher with
  | nil => rfl
  | cons half rest ih =>
      cases half with
      | begin doc => exact absurd quiet Quiet.not_begin
      | complete doc invocation outcome => exact ih quiet.tail

/-- Nobody holds the token of a beginning that has returned no invocation. -/
theorem idle_of_unsupported {options : StyleOptions} {before between later : List Half}
    {begun doc : Document} {invocation : Invocation} {outcome : Outcome}
    (issued : (new .empty options).Issued
      (before ++ .begin begun :: between ++ .complete doc invocation outcome :: later))
    (unsupported : begun.target = .unsupported) (quiet : Quiet between) :
    ((new .empty options).play (before ++ .begin begun :: between)).active ≠
      some invocation.token := by
  have early : invocation.token ∈ (new .empty options).issues before := by
    have held := issued _ later doc invocation outcome rfl
    rw [issues_append, issues, begin_of_unsupported _ unsupported, issues_of_quiet quiet] at held
    simpa using held
  have known := (mem_mints_iff.mp (mints_of_issues early)).2
  intro active
  obtain ⟨-, latest⟩ := getLast?_mints.mp ((active_play_iff issued.of_append).mp active).1
  rw [latest, List.countP_append, List.countP_cons_of_pos rfl] at known
  simp only [minted_new] at known
  omega

/-- On a fresh dispatcher, fewer than `2 ^ 64` runs commit at most once each, however late, often
    or crosswise their invocations are completed. -/
theorem commitsOnce (options : StyleOptions) (history : List Step)
    (genuine : (new .empty options).Genuine history)
    (few : ((new .empty options).halves history).countP Half.isBegin < 2 ^ 64) :
    CommitsOnce (new .empty options) ((new .empty options).halves history) := by
  have issued := genuine.issued
  generalize (new .empty options).halves history = halves at issued few
  refine {
    increasing := pairwise_mints _ _
    bounded := ?_
    own_token := ?_
    commits_iff := ?_
    once := ?_
    superseded := ?_ }
  · intro token minted
    have known := (mem_mints_iff.mp minted).2
    rw [minted_new] at known
    omega
  · rintro before later doc invocation - returned
    rw [getLast?_mints, token_of_begin returned, minted_play, List.countP_append]
    simp [Half.isBegin]
  · rintro before later doc invocation outcome rfl
    rw [complete_ne_stale_iff, active_play_iff issued.of_append]
  · rintro before between later firstDoc first firstOutcome doc invocation outcome rfl same
    rw [complete_of_not_active]
    intro active
    have alone := ((active_play_iff issued.of_append).mp active).2
    exact alone (.complete firstDoc first firstOutcome) (by simp) (congrArg some same)
  · rintro before between later begun doc invocation outcome rfl unsupported quiet
    refine ⟨begin_of_unsupported _ unsupported, ?_⟩
    rw [complete_of_not_active (idle_of_unsupported issued unsupported quiet)]

theorem commitsOnce_overlapping :
    (new .empty {}).Genuine overlapping ∧
      ((new .empty {}).halves overlapping).countP Half.isBegin < 2 ^ 64 ∧
      CommitsOnce (new .empty {}) ((new .empty {}).halves overlapping) := by
  have genuine : (new .empty {}).Genuine overlapping := by decide +kernel
  have few : ((new .empty {}).halves overlapping).countP Half.isBegin < 2 ^ 64 := by decide +kernel
  exact ⟨genuine, few, commitsOnce {} overlapping genuine few⟩

end Dispatcher

end PageCheck
