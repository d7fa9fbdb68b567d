import Mathlib.Control.Monad.Basic
import PageCheck.Program
import PageCheck.Proofs.Batch.Basic
import PageCheck.Proofs.Dispatch.Agreement

/-! # The exit code and the output

Whatever keeps the program from starting leaves the standard output empty. Once the first file is
run, all that has been printed stays, and the exit code tells how the rest went: two if a file could
not be opened, one if an error stands on a printed panel, and zero otherwise.
-/

namespace PageCheck

theorem Verdict.exitCode_onAll (deliveries : List Delivery) :
    (onAll deliveries).exitCode =
      if ∃ delivery ∈ deliveries, delivery.status.isFailing then 1 else 0 := by
  unfold onAll
  split <;> rfl

theorem Delivery.isFailing_alone_iff (options : StyleOptions) (answer : Request → Outcome)
    (doc : Document) :
    (alone options answer doc).status.isFailing ↔
      ∃ entry ∈ (alone options answer doc).entries, entry.style? = some .error :=
  (Dispatcher.agrees_validate doc answer).isFailing_iff

theorem isFailing_runsAlone {services : Course} {options : StyleOptions} {calls : List Request}
    {docs : List Document} {delivery : Delivery}
    (member : delivery ∈ runsAlone services options calls docs) :
    delivery.status.isFailing ↔ ∃ entry ∈ delivery.entries, entry.style? = some .error := by
  obtain ⟨place, inside, rfl⟩ := List.mem_mapIdx.mp member
  exact Delivery.isFailing_alone_iff ..

namespace FileTree

variable {tree : FileTree} {services : Course} {root : String} {grammar : Option String}
  {options : StyleOptions} {files : List String}

theorem exitCode_batch :
    let runs := runsAlone services options [] (tree.opened root grammar files)
    (match (tree.batch services root grammar options files).verdict with
      | .error problem => problem.exitCode
      | .ok verdict => verdict.exitCode) =
      if ∃ file ∈ files, ¬ tree.Opens root grammar file then 2
      else if ∃ run ∈ runs, ∃ entry ∈ run.entries, entry.style? = some .error then 1
      else 0 := by
  intro runs
  simp only [batch_eq]
  cases obstacle : tree.obstacle? root grammar files with
  | some problem =>
      have unreadable : ∃ file ∈ files, ¬ tree.Opens root grammar file := by
        simpa using mt obstacle?_eq_none_iff.mpr (by simp [obstacle])
      rw [if_pos unreadable]
      rfl
  | none =>
      have readable : ¬ ∃ file ∈ files, ¬ tree.Opens root grammar file := by
        simpa using obstacle?_eq_none_iff.mp obstacle
      have worst : (∃ run ∈ runs, run.status.isFailing) ↔
          ∃ run ∈ runs, ∃ entry ∈ run.entries, entry.style? = some .error :=
        exists_congr fun run => and_congr_right isFailing_runsAlone
      rw [if_neg readable]
      refine (Verdict.exitCode_onAll runs).trans ?_
      simp only [worst]

end FileTree

namespace Surroundings

variable {around : Surroundings} {arguments : CommandLine.Arguments} {problem : Problem}

theorem prepare_of_ok {settings : Settings}
    (found : around.tree.settings arguments.overrides = .ok settings) :
    around.prepare arguments =
      (around.tree.expand arguments.paths).map fun files => (settings, files) := by
  simp only [prepare, found]
  cases around.tree.expand arguments.paths <;> rfl

theorem prepare_of_error
    (failed : around.tree.settings arguments.overrides = .error problem) :
    around.prepare arguments = .error problem := by
  simp only [prepare, failed]
  rfl

theorem validate_of_prepare_error (failed : around.prepare arguments = .error problem) :
    around.validate arguments = { messages := problem.line around.styling, exitCode := 2 } := by
  unfold validate
  simp only [failed, Problem.exitCode]

/-- Printing tells the whole of a batch, also where there is no file to run. -/
theorem output_validate {settings : Settings} {files : List String}
    (prepared : around.prepare arguments = .ok (settings, files)) :
    let batch := around.tree.batch (around.services settings) settings.root arguments.grammar
      settings.style files
    (around.validate arguments).output = (around.print settings.output batch).output ∧
      (around.validate arguments).exitCode = (around.print settings.output batch).exitCode ∧
      (around.validate arguments).opened = (around.print settings.output batch).opened := by
  unfold validate
  cases files with
  | nil =>
      simp only [prepared]
      exact ⟨rfl, rfl, rfl⟩
  | cons file rest =>
      simp only [prepared]
      exact ⟨trivial, trivial, trivial⟩

/-- Problems with the settings or, where these are found, with the path arguments leave nothing
    behind but their message and the code two. Otherwise the output is the printed panels of the
    files before the first one that cannot be opened, in their order and in the output mode in
    effect, and the code is two if there is such a file, else one if a printed panel shows an
    error, and else zero. -/
theorem validate_exitCode_output (around : Surroundings) (arguments : CommandLine.Arguments) :
    let transcript := around.validate arguments
    (∀ problem, around.tree.settings arguments.overrides = .error problem ∨
        (∃ settings, around.tree.settings arguments.overrides = .ok settings ∧
          around.tree.expand arguments.paths = .error problem) →
      transcript.output = "" ∧ transcript.opened = [] ∧ transcript.calls = [] ∧
        transcript.exitCode = 2 ∧ transcript.messages = problem.line around.styling) ∧
    ∀ settings files, around.tree.settings arguments.overrides = .ok settings →
      around.tree.expand arguments.paths = .ok files →
        let docs := around.tree.opened settings.root arguments.grammar files
        let runs := runsAlone (around.services settings) settings.style [] docs
        transcript.opened = docs ∧
          transcript.output =
            String.join (runs.map fun run => run.printed settings.output around.styling) ∧
          transcript.exitCode =
            if ∃ file ∈ files, ¬ around.tree.Opens settings.root arguments.grammar file then 2
            else if ∃ run ∈ runs, ∃ entry ∈ run.entries, entry.style? = some .error then 1
            else 0 := by
  intro transcript
  constructor
  · intro problem failed
    have stopped : around.prepare arguments = .error problem := by
      rcases failed with failed | ⟨settings, found, failed⟩
      · exact prepare_of_error failed
      · rw [prepare_of_ok found, failed]
        rfl
    have left : transcript = { messages := problem.line around.styling, exitCode := 2 } :=
      validate_of_prepare_error stopped
    rw [left]
    exact ⟨rfl, rfl, rfl, rfl, rfl⟩
  · intro settings files found expanded docs runs
    have prepared : around.prepare arguments = .ok (settings, files) := by
      rw [prepare_of_ok found, expanded]
      rfl
    obtain ⟨output, code, opened⟩ := output_validate prepared
    refine ⟨opened.trans ?_, output.trans ?_, code.trans FileTree.exitCode_batch⟩
    · simp only [print, FileTree.batch_eq]
      exact map_document_runsAlone ..
    · simp only [print, FileTree.batch_eq]
      rfl

/-- Of three files, the first is clean, the second has an error, and the third holds no text. An
    output mode that does not exist comes before a malformed pattern. -/
theorem validate_exitCode_output_pages :
    let tree : FileTree :=
      ⟨[("a.html", .file "<p>".toUTF8), ("b.html", .file "</b>".toUTF8),
        ("c.html", .file ⟨#[0xFF]⟩)], []⟩
    let services : Course := fun calls =>
      ⟨fun _ => .ok ⟨some [{ kind := if calls.isEmpty then "info" else "error" }]⟩,
        fun _ _ => .ok {}⟩
    let around : Surroundings := ⟨tree, .plain, fun _ => services⟩
    let pages := around.validate { paths := ["a.html", "b.html", "c.html"] }
    let clean := around.validate { paths := ["a.html"] }
    let stray := around.validate { paths := ["a.html", "["] }
    let misuse := around.validate { paths := ["["], output := some "xml" }
    pages.exitCode = 2 ∧
      pages.output = "⌕ a.html - 0 errors, 0 warnings\n✔ No errors were found!\n" ++
        "⌕ b.html - 1 error, 0 warnings\n✖ ? \n" ∧
      clean.exitCode = 0 ∧ stray.exitCode = 2 ∧ stray.output = "" ∧ misuse.exitCode = 2 ∧
      misuse.messages = (Problem.unknownOutput "xml").line .plain := by
  intro tree services around pages clean stray misuse
  let settings : Settings :=
    { root := "/", fileFound := false, output := .human, style := {}
      htmlUrl := Settings.defaultHtmlUrl, cssUrl := Settings.defaultCssUrl, timeout := none }
  have found : tree.settings {} = .ok settings := by decide +kernel
  have unknown : tree.settings { output := some "xml" } = .error (.unknownOutput "xml") := by
    decide +kernel
  have expanded : tree.expand ["a.html", "b.html", "c.html"] =
      .ok ["a.html", "b.html", "c.html"] := by
    decide +kernel
  have single : tree.expand ["a.html"] = .ok ["a.html"] := by decide +kernel
  have malformed : tree.expand ["a.html", "["] = .error (.badPattern "[" ⟨0, .range⟩) := by
    decide +kernel
  obtain ⟨-, output, code⟩ :=
    (validate_exitCode_output around { paths := ["a.html", "b.html", "c.html"] }).2 settings _ found
      expanded
  obtain ⟨-, -, codeClean⟩ :=
    (validate_exitCode_output around { paths := ["a.html"] }).2 settings _ found single
  obtain ⟨nothing, -, -, codeStray, -⟩ :=
    (validate_exitCode_output around { paths := ["a.html", "["] }).1 _
      (.inr ⟨settings, found, malformed⟩)
  obtain ⟨-, -, -, codeMisuse, messages⟩ :=
    (validate_exitCode_output around { paths := ["["], output := some "xml" }).1 _ (.inl unknown)
  refine ⟨code.trans ?_, output.trans ?_, codeClean.trans ?_, codeStray, nothing, codeMisuse,
    messages⟩
  · decide +kernel
  · decide +kernel
  · decide +kernel

end Surroundings

end PageCheck
