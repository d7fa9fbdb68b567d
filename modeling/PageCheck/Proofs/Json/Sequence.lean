import PageCheck.Proofs.Json.RoundTrip

/-! # Texts of several documents

How a text divides into JSON documents. The division is as loose as can be: any value is a
document, and between two documents there may be blanks or nothing. Where the documents are objects
there is nevertheless one division only. An object ends with the bracket that closes it, and this
bracket is nothing that the machine takes once a value might have ended.
-/

namespace PageCheck

namespace Json

/-- A text that is one JSON value and has no blank at its ends. -/
structure IsDocument (text : String) : Prop where
  isSome : (Json.read text).isSome
  first : ∀ c ∈ text.toList.head?, isSpace c = false
  last : ∀ c ∈ text.toList.getLast?, isSpace c = false

/-- A division of characters into documents. -/
inductive Documents : List Char → List String → Prop where
  | blank {blanks : List Char} (blank : ∀ c ∈ blanks, isSpace c) : Documents blanks []
  | document {blanks rest : List Char} {text : String} {others : List String}
    (blank : ∀ c ∈ blanks, isSpace c) (document : IsDocument text)
    (remaining : Documents rest others) :
    Documents (blanks ++ (text.toList ++ rest)) (text :: others)

theorem IsDocument.exists_cons {text : String} (document : IsDocument text) :
    ∃ c rest, text.toList = c :: rest ∧ isSpace c = false := by
  obtain ⟨isSome, first, _⟩ := document
  rw [Json.read] at isSome
  cases characters : text.toList with
  | nil =>
      rw [characters] at isSome
      cases isSome
  | cons c rest => exact ⟨c, rest, rfl, first c (by rw [characters]; rfl)⟩

theorem documents_nil {texts : List String} : Documents [] texts ↔ texts = [] := by
  constructor
  · generalize same : [] = whole
    intro division
    cases division with
    | blank _ => rfl
    | document _ document _ =>
        obtain ⟨c, more, characters, _⟩ := document.exists_cons
        simp [characters] at same
  · rintro rfl
    exact .blank (List.forall_mem_nil _)

/-- A blank in front of a text does not count. -/
theorem documents_cons_blank {c : Char} (blank : isSpace c) {rest : List Char}
    {texts : List String} : Documents (c :: rest) texts ↔ Documents rest texts := by
  constructor
  · generalize same : c :: rest = whole
    intro division
    cases division with
    | blank blanks =>
        subst same
        exact .blank (List.forall_mem_cons.mp blanks).2
    | @document blanks after text others inFront document remaining =>
        cases blanks with
        | nil =>
            obtain ⟨first, more, characters, notBlank⟩ := document.exists_cons
            rw [characters, List.nil_append, List.cons_append, List.cons.injEq] at same
            rw [← same.1, blank] at notBlank
            cases notBlank
        | cons own blanks =>
            rw [List.cons_append, List.cons.injEq] at same
            rw [same.2]
            exact .document (List.forall_mem_cons.mp inFront).2 document remaining
  · intro division
    cases division with
    | blank blanks => exact .blank (List.forall_mem_cons.mpr ⟨blank, blanks⟩)
    | @document blanks after text others inFront document remaining =>
        rw [← List.cons_append]
        exact .document (List.forall_mem_cons.mpr ⟨blank, inFront⟩) document remaining

/-- Whether a value has ended, or may have ended without a sign of it. -/
def Mode.mayEnd : Mode → Bool
  | number _ | word _ | done _ => true
  | _ => false

namespace Machine

variable {machine next : Machine} {value : Json} {c : Char} {cs : List Char}

theorem advance_done (advanced : advance ⟨.done value, []⟩ c = some next) :
    isSpace c ∧ next = ⟨.done value, []⟩ := by
  simp only [advance, afterValue] at advanced
  split at advanced
  · next blank => exact ⟨blank, (Option.some.inj advanced).symm⟩
  · cases advanced

theorem run_done (ran : run ⟨.done value, []⟩ cs = some next) : ∀ c ∈ cs, isSpace c := by
  induction cs with
  | nil => exact List.forall_mem_nil _
  | cons c rest ih =>
      obtain ⟨after, stepped, ran⟩ := Option.bind_eq_some_iff.mp ran
      obtain ⟨blank, rfl⟩ := advance_done stepped
      exact List.forall_mem_cons.mpr ⟨blank, ih ran⟩

theorem settle_done (mayEnd : machine.mode.mayEnd) (settled : machine.settle = some next) :
    ∃ value, next = ⟨.done value, machine.frames⟩ := by
  obtain ⟨mode, frames⟩ := machine
  cases mode with
  | number raw | word raw =>
      obtain ⟨value, _, rfl⟩ := Option.map_eq_some_iff.mp settled
      exact ⟨value, rfl⟩
  | done value => exact ⟨value, (Option.some.inj settled).symm⟩
  | value | firstItem | firstKey | key | keyLiteral | colon | literal => cases mayEnd

theorem Ends.mayEnd {frames : List Frame} (ends : machine.Ends value frames) :
    machine.mode.mayEnd ∧ machine.frames = frames := by
  obtain ⟨mode, own⟩ := machine
  cases mode with
  | number raw | word raw =>
      obtain ⟨_, _, same⟩ := Option.map_eq_some_iff.mp ends
      cases same
      exact ⟨rfl, rfl⟩
  | done own =>
      cases ends
      exact ⟨rfl, rfl⟩
  | value | firstItem | firstKey | key | keyLiteral | colon | literal => cases ends

/-- With nothing open, a value that may have ended never comes to a closing bracket. -/
theorem step_mayEnd (mayEnd : machine.mode.mayEnd) (outermost : machine.frames = [])
    (stepped : machine.step c = some next) :
    next.mode.mayEnd ∧ next.frames = [] ∧ c ≠ '\x7d' := by
  have settled (bound : machine.settle.bind (·.advance c) = some next) :
      next.mode.mayEnd ∧ next.frames = [] ∧ c ≠ '\x7d' := by
    obtain ⟨last, ended, advanced⟩ := Option.bind_eq_some_iff.mp bound
    obtain ⟨value, rfl⟩ := settle_done mayEnd ended
    rw [outermost] at advanced
    obtain ⟨blank, rfl⟩ := advance_done advanced
    refine ⟨rfl, rfl, ?_⟩
    rintro rfl
    cases blank
  obtain ⟨mode, frames⟩ := machine
  cases mode with
  | number raw | word raw =>
      simp only [step] at stepped
      split at stepped
      · next token =>
          cases stepped
          refine ⟨rfl, outermost, ?_⟩
          rintro rfl
          cases token
      · exact settled stepped
  | done value => exact settled stepped
  | value | firstItem | firstKey | key | keyLiteral | colon | literal => cases mayEnd

theorem run_mayEnd (mayEnd : machine.mode.mayEnd) (outermost : machine.frames = [])
    (ran : machine.run cs = some next) : '\x7d' ∉ cs := by
  induction cs generalizing machine with
  | nil => exact fun member => nomatch member
  | cons c rest ih =>
      obtain ⟨after, stepped, ran⟩ := Option.bind_eq_some_iff.mp ran
      obtain ⟨mayEnd, outermost, notBracket⟩ := step_mayEnd mayEnd outermost stepped
      exact List.not_mem_cons_of_ne_of_not_mem notBracket.symm (ih mayEnd outermost ran)

/-- An object ends with its bracket and not before. -/
theorem Ends.eq_done_object {members : List (Meaning × Json)} {frames : List Frame}
    (ends : machine.Ends (.object members) frames) :
    machine = ⟨.done (.object members), frames⟩ := by
  obtain ⟨mode, own⟩ := machine
  cases mode with
  | number raw =>
      obtain ⟨_, number, same⟩ := Option.map_eq_some_iff.mp ends
      cases same
      simp only [number?, Option.ite_none_right_eq_some, Option.some.injEq] at number
      split at number <;> cases number.2
  | word raw =>
      obtain ⟨_, word, same⟩ := Option.map_eq_some_iff.mp ends
      cases same
      simp only [word?] at word
      split at word
      · cases word
      split at word
      · cases word
      split at word
      · cases word
      · cases word
  | done own =>
      cases ends
      rfl
  | value | firstItem | firstKey | key | keyLiteral | colon | literal => cases ends

end Machine

/-- An object is written between its brackets. -/
theorem write_object (depth : Nat) (members : List (Meaning × Json)) :
    ∃ inner, write depth (.object members) = '\x7b' :: (inner ++ ['\x7d']) := by
  cases members with
  | nil => exact ⟨[], by rw [write]; rfl⟩
  | cons first rest =>
      rw [write]
      exact ⟨_, rfl⟩

section Objects

variable {members : List (Meaning × Json)}

theorem isDocument_pretty (plain : (object members).Plain) :
    IsDocument (pretty (.object members)) := by
  obtain ⟨inner, written⟩ := write_object 0 members
  have characters : (pretty (.object members)).toList = '\x7b' :: (inner ++ ['\x7d']) := by
    rw [pretty, String.toList_ofList, written]
  refine ⟨by rw [read_pretty plain]; rfl, ?_, ?_⟩
  · rw [characters]
    rintro c ⟨⟩
    rfl
  · rw [characters, ← List.cons_append, List.getLast?_concat]
    rintro c ⟨⟩
    rfl

/-- A document and a written object at the beginning of the same text are the same. -/
theorem IsDocument.eq_pretty {text : String} (document : IsDocument text)
    (plain : (object members).Plain) {rest after : List Char}
    (same : text.toList ++ after = write 0 (.object members) ++ rest) :
    text.toList = write 0 (.object members) ∧ after = rest := by
  obtain ⟨value, readText⟩ := Option.isSome_iff_exists.mp document.isSome
  obtain ⟨last, ran, result⟩ := Option.bind_eq_some_iff.mp readText
  obtain ⟨mayEnd, outermost⟩ := (Machine.result?_eq_some_iff.mp result).mayEnd
  obtain ⟨written, ranWritten, endsWritten⟩ := Machine.reads_write plain 0 []
  rcases List.append_eq_append_iff.mp same with ⟨more, longer, cut⟩ | ⟨more, longer, cut⟩
  · -- The document is the beginning of the object: the last bracket is not among what follows it.
    rw [longer, Machine.run_append] at ranWritten
    obtain ⟨early, ranEarly, ranMore⟩ := Option.bind_eq_some_iff.mp ranWritten
    cases ran.symm.trans ranEarly
    rcases List.eq_nil_or_concat more with rfl | ⟨front, c, rfl⟩
    · exact ⟨by rw [longer, List.append_nil], cut⟩
    · obtain ⟨inner, brackets⟩ := write_object 0 members
      have bracket : c = '\x7d' := by
        have last := congrArg List.getLast? longer
        rw [brackets, ← List.cons_append, List.getLast?_concat] at last
        simpa using last.symm
      exact absurd (by simp [bracket]) (Machine.run_mayEnd mayEnd outermost ranMore)
  · -- The object is the beginning of the document: only blanks may follow it.
    rw [endsWritten.eq_done_object] at ranWritten
    rw [longer, Machine.run_append] at ran
    obtain ⟨early, ranEarly, ranMore⟩ := Option.bind_eq_some_iff.mp ran
    cases ranWritten.symm.trans ranEarly
    rcases List.eq_nil_or_concat more with rfl | ⟨front, c, rfl⟩
    · exact ⟨by rw [longer, List.append_nil], cut.symm⟩
    · have blank := Machine.run_done ranMore c (by simp)
      have notBlank := document.last c (by simp [longer])
      rw [blank] at notBlank
      cases notBlank

/-- A written object is the first document of every text that begins with it. -/
theorem documents_pretty_append (plain : (object members).Plain) {rest : List Char}
    {texts : List String} :
    Documents ((pretty (.object members)).toList ++ rest) texts ↔
      ∃ others, texts = pretty (.object members) :: others ∧ Documents rest others := by
  constructor
  · generalize whole : (pretty (.object members)).toList ++ rest = cs
    intro division
    obtain ⟨inner, brackets⟩ := write_object 0 members
    rw [pretty, String.toList_ofList] at whole
    cases division with
    | blank blanks =>
        have notBlank := blanks '\x7b' (by simp [← whole, brackets])
        cases notBlank
    | @document blanks after text others inFront document remaining =>
        cases blanks with
        | nil =>
            obtain ⟨same, rfl⟩ := document.eq_pretty plain whole.symm
            exact ⟨others, by rw [pretty, ← same, String.ofList_toList], remaining⟩
        | cons c blanks =>
            rw [brackets, List.cons_append, List.cons_append, List.cons.injEq] at whole
            have notBlank := inFront c List.mem_cons_self
            rw [← whole.1] at notBlank
            cases notBlank
  · rintro ⟨others, rfl, remaining⟩
    rw [← List.nil_append (_ ++ rest)]
    exact .document (List.forall_mem_nil _) (isDocument_pretty plain) remaining

end Objects

end Json

end PageCheck
