import PageCheck.Proofs.Json.Spelling

/-! # What the reading machine does

The machine's steps, brought together to the pieces that a text is made of: blanks, literals, and
values with what may stand behind them. A number or a word ends only with the character behind it,
so a value that has been read to its last character need not be settled yet.
-/

namespace PageCheck.Json

/-- Whether a machine in this mode passes over blanks. -/
def Mode.passesBlanks : Mode → Bool
  | value | firstItem | firstKey | key _ | colon .. | done _ => true
  | keyLiteral .. | literal .. | number _ | word _ => false

/-- Whether a character ends the number or the word that stands before it. -/
def endsToken (c : Char) : Bool :=
  !isNumberChar c && !c.isAlpha

namespace Machine

variable {machine : Machine} {value : Json} {frames : List Frame}

/-- The machine has read a value, which stands in `frames`. -/
def Ends (machine : Machine) (value : Json) (frames : List Frame) : Prop :=
  machine.settle = some ⟨.done value, frames⟩

/-- From this state, the characters are read as a value that stands in `frames`. -/
def Reads (machine : Machine) (cs : List Char) (value : Json) (frames : List Frame) : Prop :=
  ∃ last, machine.run cs = some last ∧ last.Ends value frames

@[simp] theorem run_nil : machine.run [] = some machine := rfl

theorem run_cons (c : Char) (rest : List Char) :
    machine.run (c :: rest) = (machine.step c).bind (·.run rest) := rfl

theorem run_append (first rest : List Char) :
    machine.run (first ++ rest) = (machine.run first).bind (·.run rest) := by
  induction first generalizing machine with
  | nil => rfl
  | cons c others ih =>
      rw [List.cons_append, run_cons, run_cons]
      cases machine.step c with
      | none => rfl
      | some next => exact ih

theorem ends_done (value : Json) (frames : List Frame) :
    Ends ⟨.done value, frames⟩ value frames := rfl

theorem step_blank {c : Char} (passes : machine.mode.passesBlanks) (blank : isSpace c) :
    machine.step c = some machine := by
  obtain ⟨mode, frames⟩ := machine
  cases mode <;> simp_all [Mode.passesBlanks, step, advance]

theorem run_blanks {blanks : List Char} (passes : machine.mode.passesBlanks)
    (blank : ∀ c ∈ blanks, isSpace c) : machine.run blanks = some machine := by
  induction blanks with
  | nil => rfl
  | cons c rest ih =>
      obtain ⟨first, others⟩ := List.forall_mem_cons.mp blank
      rw [run_cons, step_blank passes first, Option.bind_some, ih others]

theorem endsToken_of_isSpace {c : Char} (blank : isSpace c) : endsToken c := by
  simp only [isSpace, Bool.or_eq_true, decide_eq_true_eq] at blank
  rcases blank with ((rfl | rfl) | rfl) | rfl <;> rfl

/-- Behind a value that has been read, a character that belongs to no number or word is taken as
    behind a settled value. -/
theorem Ends.step {c : Char} (ends : machine.Ends value frames) (behind : endsToken c) :
    machine.step c = advance ⟨.done value, frames⟩ c := by
  simp only [endsToken, Bool.and_eq_true, Bool.not_eq_true'] at behind
  obtain ⟨notNumber, notAlpha⟩ := behind
  obtain ⟨mode, own⟩ := machine
  cases mode with
  | number raw =>
      simp only [Machine.step, notNumber, Bool.false_eq_true, if_false]
      rw [ends, Option.bind_some]
  | word raw =>
      simp only [Machine.step, notAlpha, Bool.false_eq_true, if_false]
      rw [ends, Option.bind_some]
  | done own =>
      cases ends
      rfl
  | value | firstItem | firstKey | key | keyLiteral | colon | literal => cases ends

theorem Ends.run_cons {c : Char} (ends : machine.Ends value frames) (behind : endsToken c)
    (rest : List Char) :
    machine.run (c :: rest) = (advance ⟨.done value, frames⟩ c).bind (·.run rest) := by
  rw [Machine.run_cons, ends.step behind]

theorem Ends.reads_blanks {blanks : List Char} (ends : machine.Ends value frames)
    (blank : ∀ c ∈ blanks, isSpace c) : machine.Reads blanks value frames := by
  cases blanks with
  | nil => exact ⟨machine, rfl, ends⟩
  | cons c rest =>
      obtain ⟨first, others⟩ := List.forall_mem_cons.mp blank
      have settled : Machine.step ⟨.done value, frames⟩ c = some ⟨.done value, frames⟩ :=
        step_blank rfl first
      refine ⟨⟨.done value, frames⟩, ?_, ends_done value frames⟩
      rw [ends.run_cons (endsToken_of_isSpace first)]
      refine (congrArg (Option.bind · _) settled).trans ?_
      exact run_blanks rfl others

/-- Behind a value and blanks, a separator or an end is taken as behind a settled value. -/
theorem Ends.run_blanks_cons {blanks : List Char} {c : Char} (ends : machine.Ends value frames)
    (blank : ∀ c ∈ blanks, isSpace c) (behind : endsToken c) (rest : List Char) :
    machine.run (blanks ++ c :: rest) =
      (advance ⟨.done value, frames⟩ c).bind (·.run rest) := by
  obtain ⟨last, ran, ends⟩ := ends.reads_blanks blank
  rw [run_append, ran, Option.bind_some, ends.run_cons behind]

section Literals

/-- A mode of the machine in which it collects a literal. -/
structure Collects (mode : List Char → Bool → Mode) (frames : List Frame) : Prop where
  outside : ∀ raw c, c ≠ '"' →
    Machine.step ⟨mode raw false, frames⟩ c = some ⟨mode (c :: raw) (c = '\\'), frames⟩
  inside : ∀ raw c, Machine.step ⟨mode raw true, frames⟩ c = some ⟨mode (c :: raw) false, frames⟩

theorem collects_literal (frames : List Frame) : Collects .literal frames where
  outside raw c notQuote := by simp [step, advance, notQuote]
  inside raw c := rfl

theorem collects_keyLiteral (done : List (Meaning × Json)) (frames : List Frame) :
    Collects (.keyLiteral done) frames where
  outside raw c notQuote := by simp [step, advance, notQuote]
  inside raw c := rfl

variable {mode : List Char → Bool → Mode}

theorem Collects.run_bare {c : Char} (collects : Collects mode frames) (notQuote : c ≠ '"')
    (notEscape : c ≠ '\\') (raw rest : List Char) :
    run ⟨mode raw false, frames⟩ (c :: rest) = run ⟨mode (c :: raw) false, frames⟩ rest := by
  rw [run_cons, collects.outside raw c notQuote, Option.bind_some, decide_eq_false notEscape]

theorem Collects.run_escape (collects : Collects mode frames) (c : Char) (raw rest : List Char) :
    run ⟨mode raw false, frames⟩ ('\\' :: c :: rest) =
      run ⟨mode (c :: '\\' :: raw) false, frames⟩ rest := by
  rw [run_cons, collects.outside raw '\\' (by decide), Option.bind_some, run_cons]
  exact congrArg (Option.bind · _) (collects.inside ('\\' :: raw) c)

theorem Collects.run_spelled {pieces : List Piece} {cs : List Char}
    (collects : Collects mode frames) (spelled : SpelledPieces pieces cs) (raw rest : List Char) :
    run ⟨mode raw false, frames⟩ (cs ++ rest) =
      run ⟨mode (cs.reverse ++ raw) false, frames⟩ rest := by
  induction spelled generalizing raw with
  | nil => rfl
  | bare notQuote notEscape _ _ ih =>
      rw [List.cons_append, collects.run_bare notQuote notEscape, ih]
      simp
  | short _ _ ih =>
      rw [List.cons_append, List.cons_append, collects.run_escape, ih]
      simp
  | unit first second third fourth _ ih =>
      simp only [List.cons_append]
      rw [collects.run_escape, collects.run_bare first.ne.1 first.ne.2,
        collects.run_bare second.ne.1 second.ne.2, collects.run_bare third.ne.1 third.ne.2,
        collects.run_bare fourth.ne.1 fourth.ne.2, ih]
      simp

theorem Collects.run_literal {meaning : Meaning} {cs : List Char} (collects : Collects mode frames)
    (spelled : SpelledLiteral meaning cs) (rest : List Char) :
    run ⟨mode [] false, frames⟩ (cs ++ rest) = run ⟨mode cs.reverse false, frames⟩ rest := by
  cases spelled with
  | text spelled _ | broken spelled _ => simpa using collects.run_spelled spelled [] rest

theorem run_string {meaning : Meaning} {cs : List Char} (spelled : SpelledLiteral meaning cs)
    (frames : List Frame) :
    run ⟨.value, frames⟩ ('"' :: (cs ++ ['"'])) = some ⟨.done (.string meaning), frames⟩ := by
  have closed : Machine.step ⟨.literal cs.reverse false, frames⟩ '"' =
      some ⟨.done (.string meaning), frames⟩ := by
    simp [step, advance, spelled.decode_eq]
  rw [run_cons]
  refine ((collects_literal frames).run_literal spelled ['"']).trans ?_
  rw [run_cons, closed, Option.bind_some, run_nil]

/-- A key and its colon lead to the value of a member. -/
theorem run_key {done : List (Meaning × Json)} {key : Meaning} {name gap lead : List Char}
    (opens : machine.step '"' = some ⟨.keyLiteral done [] false, frames⟩)
    (spelled : SpelledLiteral key name) (blankGap : ∀ c ∈ gap, isSpace c)
    (blankLead : ∀ c ∈ lead, isSpace c) (rest : List Char) :
    machine.run ('"' :: (name ++ '"' :: (gap ++ ':' :: (lead ++ rest)))) =
      run ⟨.value, .members done key :: frames⟩ rest := by
  have closed : Machine.step ⟨.keyLiteral done name.reverse false, frames⟩ '"' =
      some ⟨.colon done key, frames⟩ := by
    simp [step, advance, spelled.decode_eq]
  have colon : Machine.step ⟨.colon done key, frames⟩ ':' =
      some ⟨.value, .members done key :: frames⟩ := rfl
  rw [run_cons, opens, Option.bind_some, (collects_keyLiteral done frames).run_literal spelled,
    run_cons, closed, Option.bind_some, run_append, run_blanks rfl blankGap, Option.bind_some,
    run_cons, colon, Option.bind_some, run_append, run_blanks rfl blankLead, Option.bind_some]

end Literals

end Machine

end PageCheck.Json
