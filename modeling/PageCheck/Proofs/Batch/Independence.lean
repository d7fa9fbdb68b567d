import PageCheck.Proofs.Batch.Basic

/-! # Runs of a batch do not touch each other

One dispatcher serves all runs of a batch, and carries its panel and its tokens from each to the
next. None of this shows: a batch hands over what single runs on dispatchers of their own would,
as long as the services answer alike. The first file that cannot be opened ends the batch, whatever
stands behind it.
-/

namespace PageCheck

namespace FileTree

variable {tree : FileTree} {root : String} {grammar : Option String}

theorem opened_congr {other : FileTree} {files : List String}
    (alike : ∀ file ∈ files,
      other.openDocument file root grammar = tree.openDocument file root grammar) :
    other.opened root grammar files = tree.opened root grammar files := by
  induction files with
  | nil => rfl
  | cons file rest ih =>
      obtain ⟨first, others⟩ := List.forall_mem_cons.mp alike
      rw [opened, opened, first, ih others]

/-- What a batch comes to that meets an unreadable file. -/
theorem batch_of_unreadable {before : List String} {bad : String} {fault : Fault}
    (openable : ∀ file ∈ before, tree.Opens root grammar file)
    (unreadable : tree.openDocument bad root grammar = .error fault) (later : List String)
    (services : Course) (options : StyleOptions) :
    tree.batch services root grammar options (before ++ bad :: later) =
      { deliveries := runsAlone services options [] (tree.opened root grammar before)
        calls := callsFor options (tree.opened root grammar before)
        verdict := .error (.unreadableDocument bad fault) } := by
  obtain ⟨documents, problem⟩ := stops_at_unreadable openable unreadable later
  simp only [batch_eq, documents, problem]

/-- A batch hands over what its documents' runs would on dispatchers of their own. If all files
    can be opened, there is one run for each, and the batch fails just if one of them does.
    Otherwise the first file that cannot be opened is the batch's problem, and only the files before
    it are run: no other file, no other content of the files behind, would change anything. Without
    files there is nothing but a clean verdict. -/
theorem batch_runs_alone (tree : FileTree) (services : Course) (root : String)
    (grammar : Option String) (options : StyleOptions) (files : List String) :
    let batch := tree.batch services root grammar options files
    let docs := tree.opened root grammar files
    batch.deliveries = runsAlone services options [] docs ∧ batch.calls = callsFor options docs ∧
      ((∀ file ∈ files, tree.Opens root grammar file) →
        docs.map Except.ok = files.map (tree.openDocument · root grammar) ∧
          ∃ verdict, batch.verdict = .ok verdict ∧
            (verdict = .failing ↔ ∃ delivery ∈ batch.deliveries, delivery.status.isFailing)) ∧
      (∀ before bad later fault, files = before ++ bad :: later →
        (∀ file ∈ before, tree.Opens root grammar file) →
        tree.openDocument bad root grammar = .error fault →
          docs.map Except.ok = before.map (tree.openDocument · root grammar) ∧
            batch.verdict = .error (.unreadableDocument bad fault) ∧
            ∀ (other : FileTree) (others : List String),
              (∀ file ∈ before ++ [bad],
                other.openDocument file root grammar = tree.openDocument file root grammar) →
              other.batch services root grammar options (before ++ bad :: others) = batch) ∧
      tree.batch services root grammar options [] = .ended (.ok .clean) := by
  intro batch docs
  refine ⟨congrArg Batch.deliveries (batch_eq ..), congrArg Batch.calls (batch_eq ..), ?_, ?_, rfl⟩
  · intro openable
    refine ⟨map_ok_opened openable, .onAll batch.deliveries, ?_, Verdict.onAll_eq_failing_iff⟩
    simp only [batch, batch_eq, obstacle?_eq_none_iff.mpr openable]
  · rintro before bad later fault rfl openable unreadable
    have ended := batch_of_unreadable openable unreadable
    refine ⟨?_, congrArg Batch.verdict (ended later services options), ?_⟩
    · rw [← map_ok_opened openable]
      exact congrArg _ (stops_at_unreadable openable unreadable later).1
    · intro other others alike
      obtain ⟨same, sameBad⟩ := List.forall_mem_append.mp alike
      have openableThere : ∀ file ∈ before, other.Opens root grammar file := by
        intro file member
        obtain ⟨doc, found⟩ := openable file member
        exact ⟨doc, (same file member).trans found⟩
      have unreadableThere := (sameBad bad (List.mem_singleton_self bad)).trans unreadable
      have endedThere :=
        batch_of_unreadable openableThere unreadableThere others services options
      rw [endedThere, opened_congr same]
      exact (ended later services options).symm

/-- A file that no service judges leaves its token behind, and the two pages after it get different
    answers. Where a file is missing between two pages, only the first of them is run. -/
theorem batch_runs_alone_missing_file :
    let tree : FileTree :=
      ⟨[("notes.md", .file "".toUTF8), ("a.html", .file "<p>".toUTF8),
        ("b.html", .file "</b>".toUTF8)], []⟩
    let services : Course := fun calls =>
      ⟨fun _ => .ok ⟨some [{ kind := if calls.isEmpty then "error" else "warning" }]⟩,
        fun _ _ => .ok {}⟩
    let whole := tree.batch services "." none {} ["notes.md", "a.html", "b.html"]
    let cut := tree.batch services "." none {} ["b.html", "gone.css", "a.html"]
    (∀ file ∈ ["notes.md", "a.html", "b.html"], tree.Opens "." none file) ∧
      tree.openDocument "gone.css" "." none = .error .notFound ∧
      whole.deliveries.map (·.status) = [.skipped, .completed 1 0, .completed 0 1] ∧
      whole.verdict = .ok .failing ∧
      cut.deliveries.map (·.status) = [.completed 1 0] ∧
      cut.verdict = .error (.unreadableDocument "gone.css" .notFound) := by
  intro tree services whole cut
  have openable : ∀ file ∈ ["notes.md", "a.html", "b.html"], tree.Opens "." none file := by
    decide +kernel
  have missing : tree.openDocument "gone.css" "." none = .error .notFound := rfl
  obtain ⟨handed, -, complete, -⟩ :=
    batch_runs_alone tree services "." none {} ["notes.md", "a.html", "b.html"]
  obtain ⟨handedBefore, -, -, ended, -⟩ :=
    batch_runs_alone tree services "." none {} ["b.html", "gone.css", "a.html"]
  obtain ⟨-, verdict, reached, failing⟩ := complete openable
  obtain ⟨-, problem, -⟩ := ended ["b.html"] "gone.css" ["a.html"] .notFound rfl
    (fun file member => openable file (by simp_all)) missing
  have found : ∃ delivery ∈ whole.deliveries, delivery.status.isFailing := by
    rw [handed]
    decide +kernel
  refine ⟨openable, missing, ?_, reached.trans (congrArg _ (failing.mpr found)), ?_, problem⟩
  · rw [handed]
    decide +kernel
  · rw [handedBefore]
    decide +kernel

end FileTree

end PageCheck
