import Mathlib.Data.List.TakeWhile
import PageCheck.Proofs.Json.Machine

/-! # Reading every spelling

Every spelling of a value is read as this value. The machine is followed along the spelling: from
the beginning of a value, with anything open around it, it comes to the end of this value with the
same open around it. The induction is on the spelling, so that what is skipped over may be nested to
any depth.
-/

namespace PageCheck.Json

section Parts

variable {sign whole fraction exponent : List Char}

theorem digits?_append {c : Char} {rest after : List Char} (digits : ∀ d ∈ c :: rest, d.isDigit)
    (behind : ∀ d ∈ after.head?, d.isDigit = false) :
    digits? (c :: (rest ++ after)) = some after := by
  obtain ⟨first, others⟩ := List.forall_mem_cons.mp digits
  rw [digits?, if_pos first, List.dropWhile_append_of_pos others]
  cases after with
  | nil => rfl
  | cons d more => rw [List.dropWhile_cons_of_neg (by simp [behind d rfl])]

theorem Exponent.head (part : Exponent exponent) :
    ∀ d ∈ exponent.head?, d = 'e' ∨ d = 'E' := by
  cases part with
  | absent => simp
  | present marked _ _ =>
      rintro d ⟨⟩
      exact marked

theorem Exponent.exponent?_eq (part : Exponent exponent) : exponent? exponent = some [] := by
  cases part with
  | absent => rfl
  | @present mark c sign rest marked signed digits =>
      have read : digits? (c :: (rest ++ [])) = some [] := digits?_append digits (by simp)
      rw [List.append_nil] at read
      rcases signed with rfl | rfl | rfl
      · -- Without a sign, the digits begin at once.
        have isDigit := digits c List.mem_cons_self
        rw [List.nil_append, exponent?, if_pos marked]
        · exact read
        · rintro more ⟨⟩
          cases isDigit
        · rintro more ⟨⟩
          cases isDigit
      · exact (if_pos marked).trans read
      · exact (if_pos marked).trans read

theorem Fraction.head (part : Fraction fraction) (exponentPart : Exponent exponent) :
    ∀ d ∈ (fraction ++ exponent).head?, d.isDigit = false := by
  cases part with
  | absent =>
      intro d member
      rcases exponentPart.head d member with rfl | rfl <;> rfl
  | present _ =>
      rintro d ⟨⟩
      rfl

theorem Fraction.fraction?_eq (part : Fraction fraction) (exponentPart : Exponent exponent) :
    fraction? (fraction ++ exponent) = some exponent := by
  cases part with
  | absent =>
      rw [List.nil_append, fraction?.eq_def]
      split
      · next rest =>
          rcases exponentPart.head '.' rfl with impossible | impossible <;> cases impossible
      · rfl
  | present digits =>
      refine digits?_append digits ?_
      intro d member
      rcases exponentPart.head d member with rfl | rfl <;> rfl

theorem Whole.whole?_append {after : List Char} (part : Whole whole)
    (behind : ∀ d ∈ after.head?, d.isDigit = false) : whole? (whole ++ after) = some after := by
  cases part with
  | zero => rfl
  | @digits c rest first nonzero others =>
      rw [List.cons_append, whole?.eq_def]
      split
      · next same => exact absurd (List.cons.inj same).1 nonzero
      · exact digits?_append (List.forall_mem_cons.mpr ⟨first, others⟩) behind

theorem Whole.isDigit (part : Whole whole) : ∀ d ∈ whole, d.isDigit := by
  cases part with
  | zero => exact List.forall_mem_singleton.mpr rfl
  | digits first _ others => exact List.forall_mem_cons.mpr ⟨first, others⟩

theorem Whole.exists_cons (part : Whole whole) : ∃ c rest, whole = c :: rest := by
  cases part <;> exact ⟨_, _, rfl⟩

theorem isNumber_append (signed : sign = [] ∨ sign = ['-']) (wholePart : Whole whole)
    (fractionPart : Fraction fraction) (exponentPart : Exponent exponent) :
    isNumber (sign ++ (whole ++ (fraction ++ exponent))) := by
  have unsigned : (do exponent? (← fraction? (← whole? (whole ++ (fraction ++ exponent))))) =
      some [] := by
    rw [wholePart.whole?_append (fractionPart.head exponentPart)]
    simp [fractionPart.fraction?_eq exponentPart, exponentPart.exponent?_eq]
  rcases signed with rfl | rfl
  · obtain ⟨c, rest, rfl⟩ := wholePart.exists_cons
    have isDigit := wholePart.isDigit c List.mem_cons_self
    rw [List.nil_append, isNumber, decide_eq_true_eq]
    · exact unsigned
    · rintro more ⟨⟩
      cases isDigit
  · exact decide_eq_true unsigned

end Parts

theorem digitChar_ne_zero : ∀ value < 10, 0 < value → value.digitChar ≠ '0' := by
  decide

theorem head_toDigits {value : Nat} (positive : 0 < value) :
    ∃ c rest, Nat.toDigits 10 value = c :: rest ∧ c ≠ '0' := by
  induction value using Nat.strongRecOn with
  | ind value ih =>
      by_cases small : value < 10
      · exact ⟨value.digitChar, [], Nat.toDigits_of_lt_base small,
          digitChar_ne_zero value small positive⟩
      · obtain ⟨c, rest, leading, nonzero⟩ := ih (value / 10) (by omega) (by omega)
        refine ⟨c, rest ++ [(value % 10).digitChar], ?_, nonzero⟩
        rw [Nat.toDigits_of_base_le (by decide) (by omega), leading, List.cons_append]

theorem isDigit_toDigits (value : Nat) : ∀ c ∈ Nat.toDigits 10 value, c.isDigit :=
  fun _ member => Nat.isDigit_of_mem_toDigits (by decide) (by decide) member

theorem whole_toDigits (value : Nat) : Whole (Nat.toDigits 10 value) := by
  cases value with
  | zero => exact .zero
  | succ less =>
      have digits := isDigit_toDigits (less + 1)
      obtain ⟨c, rest, leading, nonzero⟩ := head_toDigits (Nat.succ_pos less)
      rw [leading] at digits ⊢
      obtain ⟨first, others⟩ := List.forall_mem_cons.mp digits
      exact .digits first nonzero others

theorem number?_toDigits (value : Nat) :
    number? (Nat.toDigits 10 value) = some (.natural value) := by
  have number : isNumber (Nat.toDigits 10 value) := by
    simpa using isNumber_append (.inl rfl) (whole_toDigits value) .absent .absent
  have valued : digitsValue (Nat.toDigits 10 value) = value :=
    Nat.ofDigitChars_eq_foldl.symm.trans Nat.ofDigitChars_ten_toDigits
  rw [number?, if_pos number, if_pos (List.all_eq_true.mpr (isDigit_toDigits value)), valued]

section Numerals

variable {sign whole fraction exponent : List Char}

theorem number?_numeral (signed : sign = [] ∨ sign = ['-']) (wholePart : Whole whole)
    (fractionPart : Fraction fraction) (exponentPart : Exponent exponent)
    (notNatural : sign ++ fraction ++ exponent ≠ []) :
    number? (sign ++ (whole ++ (fraction ++ exponent))) =
      some (.numeral (String.ofList (sign ++ (whole ++ (fraction ++ exponent))))) := by
  have mark : ∃ c ∈ sign ++ (whole ++ (fraction ++ exponent)), c.isDigit = false := by
    rcases signed with rfl | rfl
    · obtain ⟨c, rest, parts⟩ := List.exists_cons_of_ne_nil notNatural
      rw [List.nil_append] at parts
      exact ⟨c, by simp [parts], fractionPart.head exponentPart c (by rw [parts]; rfl)⟩
    · exact ⟨'-', by simp, rfl⟩
  have someMark : (sign ++ (whole ++ (fraction ++ exponent))).all Char.isDigit = false := by
    obtain ⟨c, member, notDigit⟩ := mark
    rw [List.all_eq_false]
    exact ⟨c, member, by simp [notDigit]⟩
  rw [number?, if_pos (isNumber_append signed wholePart fractionPart exponentPart), someMark]
  rfl

theorem isNumberChar_of_isDigit {c : Char} (digit : c.isDigit) : isNumberChar c := by
  simp [isNumberChar, digit]

theorem Fraction.isNumberChar (part : Fraction fraction) :
    ∀ c ∈ fraction, Json.isNumberChar c := by
  cases part with
  | absent => simp
  | present digits =>
      exact List.forall_mem_cons.mpr
        ⟨rfl, fun c member => isNumberChar_of_isDigit (digits c member)⟩

theorem Exponent.isNumberChar (part : Exponent exponent) :
    ∀ c ∈ exponent, Json.isNumberChar c := by
  cases part with
  | absent => simp
  | present marked signed digits =>
      refine List.forall_mem_cons.mpr ⟨?_, List.forall_mem_append.mpr ⟨?_, ?_⟩⟩
      · rcases marked with rfl | rfl <;> rfl
      · rcases signed with rfl | rfl | rfl <;> simp [Json.isNumberChar]
      · exact fun c member => isNumberChar_of_isDigit (digits c member)

end Numerals

namespace Machine

variable {frames : List Frame}

theorem run_number {cs : List Char} (number : ∀ c ∈ cs, isNumberChar c) (raw : List Char) :
    run ⟨.number raw, frames⟩ cs = some ⟨.number (cs.reverse ++ raw), frames⟩ := by
  induction cs generalizing raw with
  | nil => rfl
  | cons c rest ih =>
      obtain ⟨first, others⟩ := List.forall_mem_cons.mp number
      have taken : step ⟨.number raw, frames⟩ c = some ⟨.number (c :: raw), frames⟩ := by
        simp [step, first]
      rw [run_cons, taken, Option.bind_some, ih others, List.reverse_cons, List.append_assoc]
      rfl

theorem step_value_number {c : Char} (begins : c.isDigit ∨ c = '-') (frames : List Frame) :
    step ⟨.value, frames⟩ c = some ⟨.number [c], frames⟩ := by
  have other (d : Char) (notDigit : d.isDigit = false) (notMinus : d ≠ '-') : c ≠ d := by
    rintro rfl
    rcases begins with digit | minus
    · simp [digit] at notDigit
    · exact notMinus minus
  simp [step, advance, isSpace, beginValue, other, begins]

theorem reads_number {c : Char} {rest : List Char} {value : Json}
    (begins : c.isDigit ∨ c = '-') (others : ∀ d ∈ rest, isNumberChar d)
    (number : number? (c :: rest) = some value) (frames : List Frame) :
    Reads ⟨.value, frames⟩ (c :: rest) value frames := by
  refine ⟨⟨.number (rest.reverse ++ [c]), frames⟩, ?_, ?_⟩
  · rw [run_cons, step_value_number begins, Option.bind_some, run_number others]
  · simp [Ends, settle, number]

theorem reads_natural (value : Nat) (frames : List Frame) :
    Reads ⟨.value, frames⟩ (Nat.toDigits 10 value) (.natural value) frames := by
  have digits := isDigit_toDigits value
  have number := number?_toDigits value
  obtain ⟨c, rest, written⟩ := (whole_toDigits value).exists_cons
  rw [written] at digits number ⊢
  obtain ⟨first, others⟩ := List.forall_mem_cons.mp digits
  exact reads_number (.inl first) (fun d member => isNumberChar_of_isDigit (others d member))
    number frames

theorem reads_numeral {sign whole fraction exponent : List Char}
    (signed : sign = [] ∨ sign = ['-']) (wholePart : Whole whole)
    (fractionPart : Fraction fraction) (exponentPart : Exponent exponent)
    (notNatural : sign ++ fraction ++ exponent ≠ []) (frames : List Frame) :
    Reads ⟨.value, frames⟩ (sign ++ (whole ++ (fraction ++ exponent)))
      (.numeral (String.ofList (sign ++ (whole ++ (fraction ++ exponent))))) frames := by
  have number := number?_numeral signed wholePart fractionPart exponentPart notNatural
  have digits := wholePart.isDigit
  have behind : ∀ c ∈ whole ++ (fraction ++ exponent), isNumberChar c :=
    List.forall_mem_append.mpr ⟨fun c member => isNumberChar_of_isDigit (digits c member),
      List.forall_mem_append.mpr ⟨fractionPart.isNumberChar, exponentPart.isNumberChar⟩⟩
  rcases signed with rfl | rfl
  · obtain ⟨c, rest, rfl⟩ := wholePart.exists_cons
    exact reads_number (.inl (digits c List.mem_cons_self)) (List.forall_mem_cons.mp behind).2
      number frames
  · exact reads_number (.inr rfl) behind number frames

/-- Behind an opening bracket, an item begins as any other value does. -/
theorem run_firstItem {cs : List Char} {last : Machine}
    (ran : run ⟨.value, .items [] :: frames⟩ cs = some last)
    (moved : last ≠ ⟨.value, .items [] :: frames⟩) : run ⟨.firstItem, frames⟩ cs = some last := by
  -- Both modes pass over blanks, and they part only at a closing bracket, which begins no value.
  induction cs with
  | nil => exact absurd (Option.some.inj ran).symm moved
  | cons c rest ih =>
      rw [run_cons] at ran ⊢
      by_cases blank : isSpace c
      · rw [step_blank rfl blank, Option.bind_some] at ran ⊢
        exact ih ran
      · have notEnd : c ≠ ']' := by
          rintro rfl
          cases ran
        rw [← ran]
        simp [step, advance, blank, notEnd]

theorem run_items {items : List (Json × List Char)} {inner : List Char} {done : List Json}
    (reads : ∀ item ∈ items, ∀ frames, Reads ⟨.value, frames⟩ item.2 item.1 frames)
    (listed : Listed (items.map Prod.snd) inner) :
    run ⟨.value, .items done :: frames⟩ (inner ++ [']']) =
      some ⟨.done (.array (done.reverse ++ items.map Prod.fst)), frames⟩ := by
  generalize texts : items.map Prod.snd = written at listed
  -- Each comma adds an item to those that are done.
  induction listed generalizing items done with
  | last blankBefore blankAfter =>
      obtain ⟨item, rfl, rfl⟩ := List.map_eq_singleton_iff.mp texts
      obtain ⟨last, ran, ends⟩ := reads item List.mem_cons_self (.items done :: frames)
      simp only [List.append_assoc]
      rw [run_append, run_blanks rfl blankBefore, Option.bind_some, run_append, ran,
        Option.bind_some, ends.run_blanks_cons blankAfter rfl]
      simp [advance, afterValue, isSpace]
  | cons blankBefore blankAfter _ ih =>
      obtain ⟨item, others, rfl, rfl, rfl⟩ := List.map_eq_cons_iff.mp texts
      obtain ⟨readsItem, readsOthers⟩ := List.forall_mem_cons.mp reads
      obtain ⟨last, ran, ends⟩ := readsItem (.items done :: frames)
      have separated : advance ⟨.done item.1, .items done :: frames⟩ ',' =
          some ⟨.value, .items (item.1 :: done) :: frames⟩ := rfl
      simp only [List.append_assoc, List.cons_append]
      rw [run_append, run_blanks rfl blankBefore, Option.bind_some, run_append, ran,
        Option.bind_some, ends.run_blanks_cons blankAfter rfl, separated, Option.bind_some,
        ih readsOthers rfl]
      simp

theorem run_members {machine : Machine} {members : List MemberSpelling} {inner : List Char}
    {done : List (Meaning × Json)} (passes : machine.mode.passesBlanks)
    (opens : machine.step '"' = some ⟨.keyLiteral done [] false, frames⟩)
    (reads : ∀ member ∈ members, ∀ frames,
      Reads ⟨.value, frames⟩ member.body member.value frames)
    (listed : Listed (members.map MemberSpelling.text) inner) :
    machine.run (inner ++ ['}']) =
      some ⟨.done (.object (done.reverse ++ members.map MemberSpelling.member)), frames⟩ := by
  generalize texts : members.map MemberSpelling.text = written at listed
  -- The first key stands behind the bracket and the others behind commas, so any machine is taken
  -- that opens a key.
  induction listed generalizing machine members done with
  | last blankBefore blankAfter =>
      obtain ⟨member, rfl, rfl⟩ := List.map_eq_singleton_iff.mp texts
      obtain ⟨last, ran, ends⟩ :=
        reads member List.mem_cons_self (.members done member.key :: frames)
      simp only [MemberSpelling.text, List.append_assoc, List.cons_append]
      rw [run_append, run_blanks passes blankBefore, Option.bind_some,
        run_key opens member.spelled member.blankGap member.blankLead, run_append, ran,
        Option.bind_some, ends.run_blanks_cons blankAfter rfl]
      simp [advance, afterValue, isSpace, MemberSpelling.member]
  | cons blankBefore blankAfter _ ih =>
      obtain ⟨member, others, rfl, rfl, rfl⟩ := List.map_eq_cons_iff.mp texts
      obtain ⟨readsMember, readsOthers⟩ := List.forall_mem_cons.mp reads
      obtain ⟨last, ran, ends⟩ := readsMember (.members done member.key :: frames)
      have separated : advance ⟨.done member.value, .members done member.key :: frames⟩ ',' =
          some ⟨.key (member.member :: done), frames⟩ := rfl
      simp only [MemberSpelling.text, List.append_assoc, List.cons_append]
      rw [run_append, run_blanks passes blankBefore, Option.bind_some,
        run_key opens member.spelled member.blankGap member.blankLead, run_append, ran,
        Option.bind_some, ends.run_blanks_cons blankAfter rfl, separated, Option.bind_some,
        ih rfl rfl readsOthers rfl]
      simp

/-- A spelling of a value is read as this value, whatever is open around it. -/
theorem reads_of_spelled {value : Json} {cs : List Char} (spelled : Spelled value cs)
    (frames : List Frame) : Reads ⟨.value, frames⟩ cs value frames := by
  induction spelled generalizing frames with
  | null => exact ⟨⟨.word ['l', 'l', 'u', 'n'], frames⟩, rfl, rfl⟩
  | true => exact ⟨⟨.word ['e', 'u', 'r', 't'], frames⟩, rfl, rfl⟩
  | false => exact ⟨⟨.word ['e', 's', 'l', 'a', 'f'], frames⟩, rfl, rfl⟩
  | natural value => exact reads_natural value frames
  | numeral signed wholePart fractionPart exponentPart notNatural =>
      exact reads_numeral signed wholePart fractionPart exponentPart notNatural frames
  | string literal => exact ⟨_, run_string literal frames, ends_done _ frames⟩
  | emptyArray blank =>
      have opened : step ⟨.value, frames⟩ '[' = some ⟨.firstItem, frames⟩ := rfl
      refine ⟨⟨.done (.array []), frames⟩, ?_, ends_done _ frames⟩
      rw [run_cons, opened, Option.bind_some, run_append, run_blanks rfl blank]
      rfl
  | array _ listed ih =>
      have opened : step ⟨.value, frames⟩ '[' = some ⟨.firstItem, frames⟩ := rfl
      refine ⟨_, ?_, ends_done _ frames⟩
      rw [run_cons, opened, Option.bind_some]
      exact run_firstItem (run_items ih listed) (by simp)
  | emptyObject blank =>
      have opened : step ⟨.value, frames⟩ '{' = some ⟨.firstKey, frames⟩ := rfl
      refine ⟨⟨.done (.object []), frames⟩, ?_, ends_done _ frames⟩
      rw [run_cons, opened, Option.bind_some, run_append, run_blanks rfl blank]
      rfl
  | object _ listed ih =>
      have opened : step ⟨.value, frames⟩ '{' = some ⟨.firstKey, frames⟩ := rfl
      have keyed : step ⟨.firstKey, frames⟩ '"' = some ⟨.keyLiteral [] [] false, frames⟩ := rfl
      refine ⟨_, ?_, ends_done _ frames⟩
      rw [run_cons, opened, Option.bind_some]
      exact run_members rfl keyed ih listed

theorem result?_eq_some_iff {machine : Machine} {value : Json} :
    machine.result? = some value ↔ machine.Ends value [] := by
  constructor
  · intro result
    obtain ⟨last, settled, whole⟩ := Option.bind_eq_some_iff.mp result
    unfold Ends
    split at whole
    · cases whole
      exact settled
    · cases whole
  · intro ends
    rw [result?, ends]
    rfl

end Machine

/-- A text that spells a value is read as this value. -/
theorem read_of_spelledText {value : Json} {text : String}
    (spelled : SpelledText value text.toList) : Json.read text = some value := by
  rw [Json.read]
  generalize text.toList = cs at spelled
  cases spelled with
  | intro blankBefore spelled blankAfter =>
      obtain ⟨last, ran, ends⟩ := Machine.reads_of_spelled spelled []
      obtain ⟨settled, ranBlanks, ends⟩ := ends.reads_blanks blankAfter
      rw [Machine.start, Machine.run_append, Machine.run_blanks rfl blankBefore, Option.bind_some,
        Machine.run_append, ran, Option.bind_some, ranBlanks, Option.bind_some]
      exact Machine.result?_eq_some_iff.mpr ends

end PageCheck.Json
