import PageCheck.Text.Styled

/-! # Deleting styling

Every sequence of a text is deleted, from left to right: where one begins it goes as a whole, and
any other character stays. So a text without escape characters stays as it is, and what a style
writes around it goes again, whatever is written behind.
-/

namespace PageCheck.Text

/-- An escape character, a bracket, at least one digit, and the letter `m`. -/
inductive IsSequence : List Char → Prop where
  | mk {digits : List Char} (given : digits ≠ []) (numeric : ∀ c ∈ digits, c.isDigit = true) :
      IsSequence ('\x1b' :: '[' :: (digits ++ ['m']))

/-- A text has a sequence at its front. -/
def BeginsSequence (cs : List Char) : Prop :=
  ∃ styling rest, IsSequence styling ∧ cs = styling ++ rest

/-- `left` is what is left of a text without its sequences. -/
inductive Stripped : List Char → List Char → Prop where
  | nil : Stripped [] []
  | delete {styling rest left : List Char} (isSequence : IsSequence styling)
      (stripped : Stripped rest left) : Stripped (styling ++ rest) left
  | keep {c : Char} {rest left : List Char} (plain : ¬ BeginsSequence (c :: rest))
      (stripped : Stripped rest left) : Stripped (c :: rest) (c :: left)

/-- A text that goes on with digits and the letter `m` behind an open sequence has the sequence at
    its front. -/
theorem beginsSequence_of_closed {digits : List Char} (given : digits ≠ [])
    (numeric : ∀ c ∈ digits, c.isDigit = true) (rest : List Char) :
    BeginsSequence ('\x1b' :: '[' :: (digits ++ 'm' :: rest)) :=
  ⟨_, rest, .mk given numeric, by simp⟩

theorem stripFrom_cons {c : Char} (other : c ≠ '\x1b') (rest : List Char) :
    stripFrom [] (c :: rest) = c :: stripFrom [] rest := by
  rw [stripFrom, if_neg other]

/-- An escape character gives up what is held and begins anew. -/
theorem stripFrom_escape (held rest : List Char) :
    stripFrom held ('\x1b' :: rest) = held.reverse ++ stripFrom [] ('\x1b' :: rest) := by
  simp [stripFrom]

theorem stripFrom_held {last next c : Char} {held : List Char} (other : c ≠ '\x1b')
    (rest : List Char) :
    stripFrom (last :: next :: held) (c :: rest) =
      if c.isDigit then stripFrom (c :: last :: next :: held) rest
      else if c = 'm' ∧ last.isDigit then stripFrom [] rest
      else (last :: next :: held).reverse ++ c :: stripFrom [] rest := by
  rw [stripFrom, if_neg other]
  intro _ short
  cases short

/-- What is held of a sequence once its bracket and some digits have been read. -/
def opened (digits : List Char) : List Char :=
  digits.reverse ++ ['[', '\x1b']

theorem stripFrom_bracket (rest : List Char) :
    stripFrom [] ('\x1b' :: '[' :: rest) = stripFrom (opened []) rest := by
  simp [stripFrom, opened]

theorem stripFrom_opened {digits : List Char} (numeric : ∀ d ∈ digits, d.isDigit = true) {c : Char}
    (other : c ≠ '\x1b') (rest : List Char) :
    stripFrom (opened digits) (c :: rest) =
      if c.isDigit then stripFrom (opened (digits ++ [c])) rest
      else if c = 'm' ∧ digits ≠ [] then stripFrom [] rest
      else '\x1b' :: '[' :: (digits ++ c :: stripFrom [] rest) := by
  rcases List.eq_nil_or_concat digits with rfl | ⟨front, last, rfl⟩
  · exact (stripFrom_held other rest).trans (by simp [opened])
  · have digit : last.isDigit = true := numeric last (by simp)
    obtain ⟨next, held, before⟩ : ∃ next held, opened front = next :: held :=
      List.exists_cons_of_ne_nil (by simp [opened])
    have held_eq : opened (front ++ [last]) = last :: next :: held := by
      rw [← before]
      simp [opened]
    have opened_eq : opened (front ++ [last] ++ [c]) = c :: last :: next :: held := by
      rw [← held_eq]
      simp [opened]
    have given_up : (last :: next :: held).reverse = '\x1b' :: '[' :: (front ++ [last]) := by
      rw [← held_eq]
      simp [opened]
    rw [List.concat_eq_append, opened_eq, held_eq, stripFrom_held other, given_up]
    simp [digit]

/-- Digits and the letter `m` behind an open sequence close it, and nothing of it is given back. -/
theorem stripFrom_closed {read digits : List Char}
    (numeric : ∀ d ∈ read ++ digits, d.isDigit = true) (given : read ++ digits ≠ [])
    (rest : List Char) :
    stripFrom (opened read) (digits ++ 'm' :: rest) = stripFrom [] rest := by
  induction digits generalizing read with
  | nil =>
      rw [List.append_nil] at numeric given
      rw [List.nil_append, stripFrom_opened numeric (by decide), if_neg (by decide),
        if_pos ⟨rfl, given⟩]
  | cons digit digits ih =>
      have is_digit : digit.isDigit = true := numeric digit (by simp)
      have other : digit ≠ '\x1b' := by
        rintro rfl
        exact absurd is_digit (by decide)
      have first : ∀ d ∈ read, d.isDigit = true := fun d member => numeric d (by simp [member])
      rw [List.cons_append, stripFrom_opened first other, if_pos is_digit]
      exact ih (by simpa using numeric) (by simp)

/-- An open sequence that does not come about is given back, and what follows it is read anew. -/
theorem stripFrom_opened_of_not_beginsSequence (read : List Char)
    (numeric : ∀ d ∈ read, d.isDigit = true) {rest : List Char}
    (plain : ¬ BeginsSequence ('\x1b' :: '[' :: (read ++ rest))) :
    stripFrom (opened read) rest = '\x1b' :: '[' :: (read ++ stripFrom [] rest) := by
  induction rest generalizing read with
  | nil => simp [stripFrom, opened]
  | cons c rest ih =>
      by_cases escape : c = '\x1b'
      · rw [escape, stripFrom_escape]
        simp [opened]
      rw [stripFrom_opened numeric escape, stripFrom_cons escape]
      split
      · next digit =>
          have longer : ∀ d ∈ read ++ [c], d.isDigit = true := by
            intro d member
            rcases List.mem_append.mp member with before | last
            · exact numeric d before
            · exact List.mem_singleton.mp last ▸ digit
          rw [ih _ longer (by simpa using plain), List.append_assoc, List.singleton_append]
      · split
        · next closed =>
            obtain ⟨rfl, given⟩ := closed
            exact absurd (beginsSequence_of_closed given numeric rest) plain
        · rfl

theorem stripFrom_sequence {styling : List Char} (isSequence : IsSequence styling)
    (rest : List Char) : stripFrom [] (styling ++ rest) = stripFrom [] rest := by
  obtain ⟨given, numeric⟩ := isSequence
  rw [List.cons_append, List.cons_append, stripFrom_bracket, List.append_assoc,
    List.singleton_append, stripFrom_closed (by simpa using numeric) (by simpa using given)]

theorem stripFrom_of_not_beginsSequence {c : Char} {rest : List Char}
    (plain : ¬ BeginsSequence (c :: rest)) :
    stripFrom [] (c :: rest) = c :: stripFrom [] rest := by
  by_cases escape : c = '\x1b'
  · subst escape
    cases rest with
    | nil => rfl
    | cons next rest =>
        by_cases bracket : next = '['
        · subst bracket
          rw [stripFrom_bracket, stripFrom_opened_of_not_beginsSequence [] (by simp) plain,
            stripFrom_cons (by decide), List.nil_append]
        · simp only [stripFrom, bracket, if_true, if_false, List.reverse_nil, List.nil_append]
          split <;> rfl
  · exact stripFrom_cons escape rest

theorem stripped_stripFrom (cs : List Char) : Stripped cs (stripFrom [] cs) := by
  by_cases begins : BeginsSequence cs
  · obtain ⟨styling, rest, isSequence, rfl⟩ := begins
    have shorter : rest.length < (styling ++ rest).length := by
      cases isSequence
      simp
      omega
    rw [stripFrom_sequence isSequence]
    exact .delete isSequence (stripped_stripFrom rest)
  · cases cs with
    | nil => exact .nil
    | cons c rest =>
        rw [stripFrom_of_not_beginsSequence begins]
        exact .keep begins (stripped_stripFrom rest)
termination_by cs.length

theorem stripFrom_append {front : List Char} (free : '\x1b' ∉ front) (rest : List Char) :
    stripFrom [] (front ++ rest) = front ++ stripFrom [] rest := by
  induction front with
  | nil => rfl
  | cons c front ih =>
      obtain ⟨other, tail⟩ := List.ne_and_not_mem_of_not_mem_cons free
      rw [List.cons_append, stripFrom_cons other.symm, ih tail, List.cons_append]

/-- Deleting the sequences of a text leaves what is left without them, and nothing else is. -/
theorem stripped_iff {cs left : List Char} : Stripped cs left ↔ stripFrom [] cs = left := by
  constructor
  · intro stripped
    induction stripped with
    | nil => rfl
    | delete isSequence _ ih => rw [stripFrom_sequence isSequence, ih]
    | keep plain _ ih => rw [stripFrom_of_not_beginsSequence plain, ih]
  · rintro rfl
    exact stripped_stripFrom cs

def EscapeFree (text : String) : Prop :=
  '\x1b' ∉ text.toList

instance (text : String) : Decidable (EscapeFree text) :=
  inferInstanceAs (Decidable (_ ∉ _))

/-- A styled text is the plain one to a reader without styles. -/
structure Shows (styled plain : String) : Prop where
  /-- Deleting the sequences leaves the plain text. What follows is read as if it stood alone. -/
  stripFrom_eq : ∀ rest, stripFrom [] (styled.toList ++ rest) = plain.toList ++ stripFrom [] rest
  escapeFree : EscapeFree plain

theorem EscapeFree.shows {text : String} (free : EscapeFree text) : Shows text text :=
  ⟨stripFrom_append free, free⟩

namespace Shows

variable {styled plain : String}

theorem append (shows : Shows styled plain) {other_styled other_plain : String}
    (others : Shows other_styled other_plain) :
    Shows (styled ++ other_styled) (plain ++ other_plain) where
  stripFrom_eq rest := by
    rw [String.toList_append, String.toList_append, List.append_assoc, shows.stripFrom_eq,
      others.stripFrom_eq, List.append_assoc]
  escapeFree := by
    rw [EscapeFree, String.toList_append, List.mem_append, not_or]
    exact ⟨shows.escapeFree, others.escapeFree⟩

theorem stripped (shows : Shows styled plain) : Stripped styled.toList plain.toList := by
  have whole := shows.stripFrom_eq []
  rw [List.append_nil, stripFrom, List.reverse_nil, List.append_nil] at whole
  exact stripped_iff.mpr whole

theorem strip_eq (shows : Shows styled plain) : strip styled = plain := by
  rw [strip, stripped_iff.mp shows.stripped, String.ofList_toList]

end Shows

theorem shows_sequence {digits : String} (given : digits.toList ≠ [])
    (numeric : digits.toList.all Char.isDigit = true) : Shows (sequence digits) "" where
  stripFrom_eq rest := by
    rw [List.all_eq_true] at numeric
    have written : (sequence digits).toList = '\x1b' :: '[' :: (digits.toList ++ ['m']) := by
      simp [sequence]
    rw [written, stripFrom_sequence ⟨given, numeric⟩]
    rfl
  escapeFree := by decide

/-- A style writes a sequence on each side of its text. -/
theorem shows_between {front back text : String} (free : EscapeFree text)
    (before : Shows (sequence front) "") (behind : Shows (sequence back) "") :
    Shows (sequence front ++ text ++ sequence back) text := by
  have shown := (before.append free.shows).append behind
  rwa [String.empty_append, String.append_empty] at shown

theorem shows_paint (colour : Colour) {text : String} (free : EscapeFree text) :
    Shows (colour.paint text) text := by
  refine shows_between free (shows_sequence ?_ ?_) (shows_sequence (by decide) (by decide))
  · cases colour <;> decide
  · cases colour <;> decide

theorem shows_bold {text : String} (free : EscapeFree text) : Shows (bold text) text :=
  shows_between free (shows_sequence (by decide) (by decide))
    (shows_sequence (by decide) (by decide))

end PageCheck.Text
