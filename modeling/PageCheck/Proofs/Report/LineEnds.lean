import PageCheck.Proofs.Dispatch.Basic
import PageCheck.Proofs.Document.Lines

/-! # Line ends and reports

A report depends on the lines of a document and on nothing else of its text. So it does not matter
how a text ends its lines: written with line feeds, with pairs, or with carriage returns, the same
answers lead to the same report, status and panel.
-/

namespace PageCheck

/-- Two documents that differ at most in how their texts end lines. -/
structure Document.SameLines (doc other : Document) : Prop where
  path : doc.path = other.path
  grammar : doc.grammar = other.grammar
  lines : Text.splitLines doc.text = Text.splitLines other.text

namespace Document

/-- A document with its line feeds written as another terminator. -/
def withEnds (doc : Document) (terminator : List Char) : Document :=
  { doc with text := String.ofList (Text.replace ['\n'] terminator doc.text.toList) }

/-- A document in each of the three conventions for ending lines. -/
def spellings (doc : Document) : List Document :=
  [doc, doc.withEnds ['\r', '\n'], doc.withEnds ['\r']]

theorem sameLines_withEnds {doc : Document} {terminator : List Char}
    (ended : terminator ∈ Text.terminators) (no_ret : '\r' ∉ doc.text.toList) :
    (doc.withEnds terminator).SameLines doc :=
  ⟨rfl, rfl, Text.splitLines_replace ended no_ret⟩

theorem sameLines_of_mem_spellings {doc first second : Document}
    (no_ret : '\r' ∉ doc.text.toList) (is_first : first ∈ doc.spellings)
    (is_second : second ∈ doc.spellings) : first.SameLines second := by
  have with_doc : ∀ other ∈ doc.spellings, other.SameLines doc := by
    simp only [spellings, List.mem_cons, List.not_mem_nil, or_false]
    rintro other (rfl | rfl | rfl)
    · exact ⟨rfl, rfl, rfl⟩
    · exact sameLines_withEnds (by decide) no_ret
    · exact sameLines_withEnds (by decide) no_ret
  have first_doc := with_doc first is_first
  have second_doc := with_doc second is_second
  exact ⟨first_doc.path.trans second_doc.path.symm,
    first_doc.grammar.trans second_doc.grammar.symm, first_doc.lines.trans second_doc.lines.symm⟩

namespace SameLines

variable {doc other : Document} (same : doc.SameLines other)
include same

theorem length_lines : doc.lines.length = other.lines.length := by
  rw [doc.length_lines, other.length_lines, same.lines]

theorem lineText (row : Nat) : doc.lineText row = other.lineText row := by
  rw [doc.lineText_eq, other.lineText_eq, same.lines]

theorem build (diagnostics : List Diagnostic) :
    Report.build doc diagnostics = Report.build other diagnostics := by
  have preview (line : Option UInt32) : doc.preview line = other.preview line := by
    simp only [preview, same.lineText]
  have entryOf : doc.entryOf = other.entryOf := by
    funext diagnostic
    simp only [entryOf, preview]
  simp only [Report.build, same.path, entryOf]

theorem target : doc.target = other.target := by
  simp only [Document.target, same.grammar]

theorem started (dispatcher : Dispatcher) : dispatcher.started doc = dispatcher.started other := by
  simp only [Dispatcher.started, same.path]

theorem entries (conclusion : Conclusion) (shown : List Entry) :
    conclusion.entries doc shown = conclusion.entries other shown := by
  cases conclusion with
  | findings diagnostics => simp only [Conclusion.entries, same.build]
  | empty => rfl
  | failure detail => rfl

theorem status (conclusion : Conclusion) : conclusion.status doc = conclusion.status other := by
  cases conclusion with
  | findings diagnostics => simp only [Conclusion.status, same.build]
  | empty => rfl
  | failure detail => rfl

/-- A run on either document ends in the same way and leaves the same state behind, if the calls
    for the two are answered alike. -/
theorem validate (dispatcher : Dispatcher) {answer other_answer : Request → Outcome}
    (alike : ∀ request ∈ dispatcher.request? doc, ∀ other_request ∈ dispatcher.request? other,
      answer request = other_answer other_request) :
    (dispatcher.validate (some doc) answer).status =
        (dispatcher.validate (some other) other_answer).status ∧
      (dispatcher.validate (some doc) answer).dispatcher =
        (dispatcher.validate (some other) other_answer).dispatcher := by
  cases asked : dispatcher.request? doc with
  | none =>
      have unsupported := (Dispatcher.request?_eq_none_iff dispatcher doc).mp asked
      rw [Dispatcher.validate_of_unsupported unsupported,
        Dispatcher.validate_of_unsupported (same.target ▸ unsupported), same.started]
      exact ⟨rfl, rfl⟩
  | some request =>
      cases other_asked : dispatcher.request? other with
      | none =>
          have unsupported := (Dispatcher.request?_eq_none_iff dispatcher other).mp other_asked
          rw [← same.target, ← Dispatcher.request?_eq_none_iff dispatcher, asked] at unsupported
          cases unsupported
      | some other_request =>
          rw [Dispatcher.validate_of_request asked, Dispatcher.validate_of_request other_asked,
            alike request asked other_request other_asked, same.target, same.started]
          exact ⟨same.status _, by simp only [Dispatcher.settled, same.entries]⟩

end SameLines

/-- A document whose text has line feeds only, and the same document written with pairs or with
    carriage returns: any two of the three have the same lines, and with them the same reports and
    the same runs. -/
theorem spellings_agree {doc first second : Document} (no_ret : '\r' ∉ doc.text.toList)
    (is_first : first ∈ doc.spellings) (is_second : second ∈ doc.spellings) :
    first.lines.length = second.lines.length ∧
      (∀ row, first.lineText row = second.lineText row) ∧
      (∀ diagnostics, Report.build first diagnostics = Report.build second diagnostics) ∧
      ∀ (dispatcher : Dispatcher) (answer other_answer : Request → Outcome),
        (∀ request ∈ dispatcher.request? first, ∀ other_request ∈ dispatcher.request? second,
          answer request = other_answer other_request) →
        (dispatcher.validate (some first) answer).status =
            (dispatcher.validate (some second) other_answer).status ∧
          (dispatcher.validate (some first) answer).dispatcher =
            (dispatcher.validate (some second) other_answer).dispatcher := by
  have same := sameLines_of_mem_spellings no_ret is_first is_second
  exact ⟨same.length_lines, same.lineText, same.build,
    fun dispatcher _ _ alike => same.validate dispatcher alike⟩

/-- Pairs and carriage returns around an empty line. The bytes of the third line are others in each
    of the two texts. -/
theorem spellings_agree_empty_line :
    let page : Document := ⟨"index.html", "<p>\n\n é <b>\n", "text.html.basic"⟩
    let pairs := page.withEnds ['\r', '\n']
    let returns := page.withEnds ['\r']
    let fresh := Dispatcher.new .empty {}
    let answer : Request → Outcome :=
      fun _ => .markup (.ok ⟨some [{ kind := "error", lastLine := some 3 }]⟩)
    '\r' ∉ page.text.toList ∧ pairs ∈ page.spellings ∧ returns ∈ page.spellings ∧
      pairs.lines ≠ returns.lines ∧ pairs.lines.length = returns.lines.length ∧
      pairs.lineText 2 = some " é <b>" ∧ returns.lineText 2 = some " é <b>" ∧
      (fresh.validate (some pairs) answer).status = .completed 1 0 ∧
      (fresh.validate (some returns) answer).status = .completed 1 0 ∧
      (fresh.validate (some pairs) answer).dispatcher =
        (fresh.validate (some returns) answer).dispatcher := by
  intro page pairs returns fresh answer
  have no_ret : '\r' ∉ page.text.toList := by decide +kernel
  have is_pairs : pairs ∈ page.spellings := by decide +kernel
  have is_returns : returns ∈ page.spellings := by decide +kernel
  obtain ⟨length, lines, -, runs⟩ := spellings_agree no_ret is_pairs is_returns
  obtain ⟨status, dispatcher⟩ := runs fresh answer answer fun _ _ _ _ => rfl
  have third : pairs.lineText 2 = some " é <b>" := by decide +kernel
  have completed : (fresh.validate (some pairs) answer).status = .completed 1 0 := by decide +kernel
  exact ⟨no_ret, is_pairs, is_returns, by decide +kernel, length, third, (lines 2).symm.trans third,
    completed, status.symm.trans completed, dispatcher⟩

end Document

end PageCheck
