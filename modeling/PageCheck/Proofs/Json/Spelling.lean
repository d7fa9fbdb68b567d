import PageCheck.Json.Reader

/-! # The spellings of a value

The grammar of JSON as a relation between values and characters, apart from the machine that reads
them. A value has many spellings: blanks may stand around every token, and each character of a
string may stand bare or be escaped, by a letter or by the number of its unit or units.
-/

namespace PageCheck.Json

/-- The letters that stand for a character behind a backslash. -/
def shortEscapes : List (Char × Char) :=
  [('"', '"'), ('\\', '\\'), ('/', '/'), ('b', '\x08'), ('f', '\x0c'), ('n', '\n'), ('r', '\r'),
    ('t', '\t')]

/-- A hexadecimal digit, of either case, and its value. -/
inductive HexDigit : Char → Nat → Prop where
  | lower {value : Nat} (small : value < 16) : HexDigit value.digitChar value
  | upper {value : Nat} (small : value < 16) : HexDigit value.digitChar.toUpper value

/-- The spellings of a sequence of pieces. -/
inductive SpelledPieces : List Piece → List Char → Prop where
  | nil : SpelledPieces [] []
  | bare {c : Char} {pieces : List Piece} {cs : List Char} (notQuote : c ≠ '"')
    (notEscape : c ≠ '\\') (printable : 0x20 ≤ c.toNat) (rest : SpelledPieces pieces cs) :
    SpelledPieces (.char c :: pieces) (c :: cs)
  | short {letter c : Char} {pieces : List Piece} {cs : List Char}
    (named : (letter, c) ∈ shortEscapes) (rest : SpelledPieces pieces cs) :
    SpelledPieces (.char c :: pieces) ('\\' :: letter :: cs)
  | unit {a b c d : Char} {i j k l : Nat} {pieces : List Piece} {cs : List Char}
    (first : HexDigit a i) (second : HexDigit b j) (third : HexDigit c k) (fourth : HexDigit d l)
    (rest : SpelledPieces pieces cs) :
    SpelledPieces (.unit (((i * 16 + j) * 16 + k) * 16 + l) :: pieces)
      ('\\' :: 'u' :: a :: b :: c :: d :: cs)

/-- The text that pieces denote. A character beyond the first 65536 takes two units, each of which
    carries ten bits of its number. -/
inductive Denotes : List Piece → List Char → Prop where
  | nil : Denotes [] []
  | char (c : Char) {pieces : List Piece} {cs : List Char} (rest : Denotes pieces cs) :
    Denotes (.char c :: pieces) (c :: cs)
  | unit (c : Char) {pieces : List Piece} {cs : List Char} (rest : Denotes pieces cs) :
    Denotes (.unit c.toNat :: pieces) (c :: cs)
  | pair (c : Char) {pieces : List Piece} {cs : List Char} (beyond : 0x10000 ≤ c.toNat)
    (rest : Denotes pieces cs) :
    Denotes (.unit (0xD800 + (c.toNat - 0x10000) / 0x400) ::
      .unit (0xDC00 + (c.toNat - 0x10000) % 0x400) :: pieces) (c :: cs)

/-- The spellings of what a literal may mean, without the quotes around it. -/
inductive SpelledLiteral : Meaning → List Char → Prop where
  | text {pieces : List Piece} {cs text : List Char} (spelled : SpelledPieces pieces cs)
    (denoted : Denotes pieces text) : SpelledLiteral (some (String.ofList text)) cs
  /-- Some unit is half of a pair without the other half. -/
  | broken {pieces : List Piece} {cs : List Char} (spelled : SpelledPieces pieces cs)
    (meaningless : ∀ text, ¬ Denotes pieces text) : SpelledLiteral none cs

/-- A whole number without a sign: no zero leads, unless it is alone. -/
inductive Whole : List Char → Prop where
  | zero : Whole ['0']
  | digits {c : Char} {rest : List Char} (first : c.isDigit) (nonzero : c ≠ '0')
    (others : ∀ d ∈ rest, d.isDigit) : Whole (c :: rest)

inductive Fraction : List Char → Prop where
  | absent : Fraction []
  | present {c : Char} {rest : List Char} (digits : ∀ d ∈ c :: rest, d.isDigit) :
    Fraction ('.' :: c :: rest)

inductive Exponent : List Char → Prop where
  | absent : Exponent []
  | present {mark c : Char} {sign rest : List Char} (marked : mark = 'e' ∨ mark = 'E')
    (signed : sign = [] ∨ sign = ['+'] ∨ sign = ['-']) (digits : ∀ d ∈ c :: rest, d.isDigit) :
    Exponent (mark :: (sign ++ c :: rest))

/-- Some texts, with blanks around each and a comma between any two. -/
inductive Listed : List (List Char) → List Char → Prop where
  | last {before text after : List Char} (blankBefore : ∀ c ∈ before, isSpace c)
    (blankAfter : ∀ c ∈ after, isSpace c) : Listed [text] (before ++ (text ++ after))
  | cons {before text after rest : List Char} {others : List (List Char)}
    (blankBefore : ∀ c ∈ before, isSpace c) (blankAfter : ∀ c ∈ after, isSpace c)
    (listed : Listed others rest) :
    Listed (text :: others) (before ++ (text ++ (after ++ ',' :: rest)))

/-- How a member is spelled: its key, the blanks on both sides of the colon, and its value. -/
structure MemberSpelling where
  key : Meaning
  value : Json
  name : List Char
  gap : List Char
  lead : List Char
  body : List Char
  spelled : SpelledLiteral key name
  blankGap : ∀ c ∈ gap, isSpace c
  blankLead : ∀ c ∈ lead, isSpace c

def MemberSpelling.text (member : MemberSpelling) : List Char :=
  '"' :: (member.name ++ '"' :: (member.gap ++ ':' :: (member.lead ++ member.body)))

def MemberSpelling.member (member : MemberSpelling) : Meaning × Json :=
  (member.key, member.value)

/-- The spellings of a value, without blanks at their ends. -/
inductive Spelled : Json → List Char → Prop where
  | null : Spelled .null ['n', 'u', 'l', 'l']
  | true : Spelled (.bool true) ['t', 'r', 'u', 'e']
  | false : Spelled (.bool false) ['f', 'a', 'l', 's', 'e']
  | natural (value : Nat) : Spelled (.natural value) (Nat.toDigits 10 value)
  | numeral {sign whole fraction exponent : List Char} (signed : sign = [] ∨ sign = ['-'])
    (wholePart : Whole whole) (fractionPart : Fraction fraction)
    (exponentPart : Exponent exponent) (notNatural : sign ++ fraction ++ exponent ≠ []) :
    Spelled (.numeral (String.ofList (sign ++ (whole ++ (fraction ++ exponent)))))
      (sign ++ (whole ++ (fraction ++ exponent)))
  | string {meaning : Meaning} {cs : List Char} (literal : SpelledLiteral meaning cs) :
    Spelled (.string meaning) ('"' :: (cs ++ ['"']))
  | emptyArray {blanks : List Char} (blank : ∀ c ∈ blanks, isSpace c) :
    Spelled (.array []) ('[' :: (blanks ++ [']']))
  | array {items : List (Json × List Char)} {inner : List Char}
    (spelled : ∀ item ∈ items, Spelled item.1 item.2)
    (listed : Listed (items.map Prod.snd) inner) :
    Spelled (.array (items.map Prod.fst)) ('[' :: (inner ++ [']']))
  | emptyObject {blanks : List Char} (blank : ∀ c ∈ blanks, isSpace c) :
    Spelled (.object []) ('\x7b' :: (blanks ++ ['\x7d']))
  | object {members : List MemberSpelling} {inner : List Char}
    (spelled : ∀ member ∈ members, Spelled member.value member.body)
    (listed : Listed (members.map MemberSpelling.text) inner) :
    Spelled (.object (members.map MemberSpelling.member)) ('\x7b' :: (inner ++ ['\x7d']))

/-- A text that spells a value, with blanks around it. -/
inductive SpelledText : Json → List Char → Prop where
  | intro {value : Json} {before cs after : List Char} (blankBefore : ∀ c ∈ before, isSpace c)
    (spelled : Spelled value cs) (blankAfter : ∀ c ∈ after, isSpace c) :
    SpelledText value (before ++ (cs ++ after))

theorem Listed.alone (text : List Char) : Listed [text] text := by
  simpa using @Listed.last [] text [] (List.forall_mem_nil _) (List.forall_mem_nil _)

theorem SpelledText.of_spelled {value : Json} {cs : List Char} (spelled : Spelled value cs) :
    SpelledText value cs := by
  simpa using SpelledText.intro (List.forall_mem_nil _) spelled (List.forall_mem_nil _)

theorem pieces?_bare {c : Char} (notEscape : c ≠ '\\') (printable : 0x20 ≤ c.toNat)
    (rest : List Char) : pieces? (c :: rest) = (pieces? rest).map (.char c :: ·) := by
  rw [pieces?.eq_def]
  split
  · next heq => cases heq
  · next heq => exact absurd (List.cons.inj heq).1 notEscape
  · next heq => exact absurd (List.cons.inj heq).1 notEscape
  · next heq => exact absurd (List.cons.inj heq).1 notEscape
  · next heq =>
      obtain ⟨rfl, rfl⟩ := List.cons.inj heq
      rw [if_neg (Nat.not_lt.mpr printable)]

theorem pieces?_short {c letter : Char} (named : shortEscape? letter = some c)
    (rest : List Char) :
    pieces? ('\\' :: letter :: rest) = (pieces? rest).map (.char c :: ·) := by
  have notNumbered : letter ≠ 'u' := by
    rintro rfl
    cases named
  rw [pieces?]
  · rw [named]
    cases pieces? rest <;> rfl
  · intro a b c d more numbered _
    exact notNumbered numbered

/-- A unit that is no half of a pair denotes a character of its own. -/
theorem joinPieces_unit {value : Nat} (scalar : value < 0xD800 ∨ 0xDFFF < value)
    (pieces : List Piece) :
    joinPieces (.unit value :: pieces) = (joinPieces pieces).map (Char.ofNat value :: ·) := by
  have notLead : isLead value = false := by
    simp only [isLead, Bool.and_eq_false_iff, decide_eq_false_iff_not]
    omega
  have notTrail : isTrail value = false := by
    simp only [isTrail, Bool.and_eq_false_iff, decide_eq_false_iff_not]
    omega
  cases pieces with
  | nil => simp [joinPieces, notLead, notTrail]
  | cons next rest => cases next <;> simp [joinPieces, notLead, notTrail]

theorem shortEscape?_of_mem : ∀ named ∈ shortEscapes, shortEscape? named.1 = some named.2 := by
  decide

namespace HexDigit

variable {a b c d : Char} {i j k l : Nat}

theorem lt (digit : HexDigit a i) : i < 16 := by
  cases digit <;> assumption

theorem hexDigit?_eq (digit : HexDigit a i) : hexDigit? a = some i := by
  have both : ∀ value < 16, hexDigit? value.digitChar = some value ∧
      hexDigit? value.digitChar.toUpper = some value := by decide
  cases digit with
  | lower small => exact (both i small).1
  | upper small => exact (both i small).2

/-- A digit neither ends a literal nor begins an escape. -/
theorem ne (digit : HexDigit a i) : a ≠ '"' ∧ a ≠ '\\' := by
  constructor
  · rintro rfl
    cases digit.hexDigit?_eq
  · rintro rfl
    cases digit.hexDigit?_eq

theorem unit?_eq (first : HexDigit a i) (second : HexDigit b j) (third : HexDigit c k)
    (fourth : HexDigit d l) : unit? a b c d = some (((i * 16 + j) * 16 + k) * 16 + l) := by
  have value : (i * 16 + j) * 256 + k * 16 + l = ((i * 16 + j) * 16 + k) * 16 + l := by omega
  simp [unit?, first.hexDigit?_eq, second.hexDigit?_eq, third.hexDigit?_eq, fourth.hexDigit?_eq,
    value]

end HexDigit

namespace SpelledPieces

variable {pieces : List Piece} {cs : List Char}

theorem pieces?_eq (spelled : SpelledPieces pieces cs) : pieces? cs = some pieces := by
  induction spelled with
  | nil => rfl
  | bare _ notEscape printable _ ih => rw [pieces?_bare notEscape printable, ih, Option.map_some]
  | short named _ ih => rw [pieces?_short (shortEscape?_of_mem _ named), ih, Option.map_some]
  | unit first second third fourth _ ih =>
      simp [pieces?, first.unit?_eq second third fourth, ih]

theorem unit_lt (spelled : SpelledPieces pieces cs) :
    ∀ value, .unit value ∈ pieces → value < 0x10000 := by
  induction spelled with
  | nil => simp
  | bare _ _ _ _ ih | short _ _ ih => simpa using ih
  | unit first second third fourth _ ih =>
      have bounds := And.intro (And.intro first.lt second.lt) (And.intro third.lt fourth.lt)
      intro value member
      rcases List.mem_cons.mp member with same | later
      · cases same
        omega
      · exact ih value later

end SpelledPieces

theorem toNat_valid (c : Char) : c.toNat < 0xD800 ∨ 0xDFFF < c.toNat ∧ c.toNat < 0x110000 :=
  c.valid

theorem joinPieces_pair {c : Char} (beyond : 0x10000 ≤ c.toNat) (pieces : List Piece) :
    joinPieces (.unit (0xD800 + (c.toNat - 0x10000) / 0x400) ::
      .unit (0xDC00 + (c.toNat - 0x10000) % 0x400) :: pieces) =
        (joinPieces pieces).map (c :: ·) := by
  have valid := toNat_valid c
  have lead : isLead (0xD800 + (c.toNat - 0x10000) / 0x400) := by
    simp only [isLead, Bool.and_eq_true, decide_eq_true_eq]
    omega
  have trail : isTrail (0xDC00 + (c.toNat - 0x10000) % 0x400) := by
    simp only [isTrail, Bool.and_eq_true, decide_eq_true_eq]
    omega
  have number : 0x10000 + (0xD800 + (c.toNat - 0x10000) / 0x400 - 0xD800) * 0x400 +
      (0xDC00 + (c.toNat - 0x10000) % 0x400 - 0xDC00) = c.toNat := by omega
  rw [joinPieces, if_pos lead, if_pos trail, number, Char.ofNat_toNat]

theorem Denotes.joinPieces_eq {pieces : List Piece} {cs : List Char} (denotes : Denotes pieces cs) :
    joinPieces pieces = some cs := by
  induction denotes with
  | nil => rfl
  | char c _ ih => rw [joinPieces, ih, Option.map_some]
  | unit c _ ih =>
      have valid := toNat_valid c
      rw [joinPieces_unit (by omega), ih, Option.map_some, Char.ofNat_toNat]
  | pair c beyond _ ih => rw [joinPieces_pair beyond, ih, Option.map_some]

theorem toNat_ofNat_of_valid {value : Nat}
    (valid : value < 0xD800 ∨ 0xDFFF < value ∧ value < 0x110000) :
    (Char.ofNat value).toNat = value := by
  rw [Char.ofNat, dif_pos valid]
  rfl

theorem Denotes.of_unit {value : Nat} {pieces : List Piece} {cs : List Char}
    (valid : value < 0xD800 ∨ 0xDFFF < value ∧ value < 0x110000) (rest : Denotes pieces cs) :
    Denotes (.unit value :: pieces) (Char.ofNat value :: cs) := by
  have unit := Denotes.unit (Char.ofNat value) rest
  rwa [toNat_ofNat_of_valid valid] at unit

theorem Denotes.of_pair {lead trail : Nat} {pieces : List Piece} {cs : List Char}
    (leads : isLead lead) (trails : isTrail trail) (rest : Denotes pieces cs) :
    Denotes (.unit lead :: .unit trail :: pieces)
      (Char.ofNat (0x10000 + (lead - 0xD800) * 0x400 + (trail - 0xDC00)) :: cs) := by
  simp only [isLead, isTrail, Bool.and_eq_true, decide_eq_true_eq] at leads trails
  generalize number : 0x10000 + (lead - 0xD800) * 0x400 + (trail - 0xDC00) = value
  have own : (Char.ofNat value).toNat = value := toNat_ofNat_of_valid (by omega)
  have pair := Denotes.pair (Char.ofNat value) (by omega) rest
  have first : 0xD800 + (value - 0x10000) / 0x400 = lead := by omega
  have second : 0xDC00 + (value - 0x10000) % 0x400 = trail := by omega
  rwa [own, first, second] at pair

theorem denotes_of_joinPieces {pieces : List Piece} {cs : List Char}
    (small : ∀ value, .unit value ∈ pieces → value < 0x10000)
    (joined : joinPieces pieces = some cs) : Denotes pieces cs := by
  have valid {value : Nat} (member : .unit value ∈ pieces) (notLead : isLead value = false)
      (notTrail : isTrail value = false) :
      value < 0xD800 ∨ 0xDFFF < value ∧ value < 0x110000 := by
    have bound := small value member
    simp only [isLead, isTrail, Bool.and_eq_false_iff, decide_eq_false_iff_not] at notLead notTrail
    omega
  fun_induction joinPieces pieces generalizing cs with
  | case1 =>
      cases joined
      exact .nil
  | case2 c rest ih =>
      simp only [List.mem_cons, reduceCtorEq, false_or] at small valid
      obtain ⟨text, later, rfl⟩ := Option.map_eq_some_iff.mp joined
      exact .char c (ih small later valid)
  | case3 lead trail rest leads trails ih =>
      obtain ⟨text, later, rfl⟩ := Option.map_eq_some_iff.mp joined
      exact .of_pair leads trails (ih (fun value member => small value (by simp [member])) later
        (fun member => valid (by simp [member])))
  | case4 | case5 | case7 => cases joined
  | case6 lead trail rest notLead notTrail ih =>
      obtain ⟨text, later, rfl⟩ := Option.map_eq_some_iff.mp joined
      refine .of_unit (valid (by simp) (by simpa using notLead) (by simpa using notTrail)) ?_
      exact ih (fun value member => small value (.tail _ member)) later
        (fun member => valid (.tail _ member))
  | case8 value rest _ alone ih =>
      simp only [Bool.or_eq_true, not_or, Bool.not_eq_true] at alone
      obtain ⟨text, later, rfl⟩ := Option.map_eq_some_iff.mp joined
      refine .of_unit (valid (by simp) alone.1 alone.2) ?_
      exact ih (fun value member => small value (.tail _ member)) later
        (fun member => valid (.tail _ member))

theorem SpelledLiteral.decode_eq {meaning : Meaning} {cs : List Char}
    (spelled : SpelledLiteral meaning cs) : decode cs = some meaning := by
  cases spelled with
  | text spelled denoted =>
      rw [decode, spelled.pieces?_eq, Option.map_some, denoted.joinPieces_eq, Option.map_some]
  | @broken pieces _ spelled meaningless =>
      have unjoined : joinPieces pieces = none := by
        rw [Option.eq_none_iff_forall_ne_some]
        intro text joined
        exact meaningless text (denotes_of_joinPieces spelled.unit_lt joined)
      rw [decode, spelled.pieces?_eq, Option.map_some, unjoined, Option.map_none]

end PageCheck.Json
