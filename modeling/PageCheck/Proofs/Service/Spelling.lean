import PageCheck.Proofs.Service.Schema

/-! # The spellings of an answer

A service is free in how it writes an answer down: in the order of the members, in leaving out what
is absent or writing null for it, in adding members that nobody asks for, and in everything that
JSON itself leaves free. However it is written, an answer is decoded to what it is.

Of the members that nobody asks for, only the names must be texts. Their values may be any.
-/

namespace PageCheck

namespace Json

/-- The value is an object whose members are named by texts and give the fields. -/
def IsRecord (fields : List (Meaning × Json) → Prop) (value : Json) : Prop :=
  ∃ members, value = .object members ∧ (∀ member ∈ members, member.1.isSome) ∧ fields members

variable {α : Type} {stands likewise : α → Json → Prop}

theorem OptionalField.imp {field : Option α} {values : List Json}
    (given : OptionalField stands field values)
    (weaker : ∀ a value, stands a value → likewise a value) :
    OptionalField likewise field values := by
  cases given with
  | omitted => exact .omitted
  | null => exact .null
  | given own => exact .given (weaker _ _ own)

theorem IsList.imp {items : List α} {value : Json} (own : IsList stands items value)
    (weaker : ∀ a value, stands a value → likewise a value) : IsList likewise items value := by
  obtain ⟨values, rfl, each⟩ := own
  exact ⟨values, rfl, each.imp weaker⟩

/-- An object is one of the two spellings of a record. -/
theorem IsRecord.isRecordOf {names : List String} {fields others : List (Meaning × Json) → Prop}
    {value : Json} (own : IsRecord fields value)
    (weaker : ∀ members, fields members → others members) : IsRecordOf names others value := by
  obtain ⟨members, rfl, named, given⟩ := own
  exact ⟨members, .object named, weaker members given⟩

end Json

open Json

structure MarkupAnswer.GivenBy (answer : MarkupAnswer) (members : List (Meaning × Json)) :
    Prop where
  messages : OptionalField (IsList fun item => IsRecord item.GivenBy) answer.messages
    (valuesOf "messages" members)

structure StyleAnswer.GivenBy (answer : StyleAnswer) (members : List (Meaning × Json)) : Prop where
  errors : OptionalField (IsList fun item => IsRecord item.GivenBy) answer.errors
    (valuesOf "errors" members)
  warnings : OptionalField (IsList fun item => IsRecord item.GivenBy) answer.warnings
    (valuesOf "warnings" members)

structure StyleEnvelope.GivenBy (envelope : StyleEnvelope) (members : List (Meaning × Json)) :
    Prop where
  validation : OptionalField (fun answer => IsRecord answer.GivenBy) envelope.validation
    (valuesOf "cssvalidation" members)

/-- The text spells a value that stands for the markup service's answer. -/
def MarkupAnswer.SpelledBy (answer : MarkupAnswer) (text : String) : Prop :=
  ∃ value, IsRecord answer.GivenBy value ∧ SpelledText value text.toList

/-- The text spells a value that stands for what the style sheet service sends. -/
def StyleEnvelope.SpelledBy (envelope : StyleEnvelope) (text : String) : Prop :=
  ∃ value, IsRecord envelope.GivenBy value ∧ SpelledText value text.toList

section

variable {members : List (Meaning × Json)}

theorem MarkupAnswer.GivenBy.heldBy {answer : MarkupAnswer} (given : answer.GivenBy members) :
    answer.HeldBy members where
  messages := given.messages.imp fun _ _ items =>
    items.imp fun _ _ item => item.isRecordOf fun _ => id

theorem StyleAnswer.GivenBy.heldBy {answer : StyleAnswer} (given : answer.GivenBy members) :
    answer.HeldBy members where
  errors := given.errors.imp fun _ _ items =>
    items.imp fun _ _ item => item.isRecordOf fun _ => id
  warnings := given.warnings.imp fun _ _ items =>
    items.imp fun _ _ item => item.isRecordOf fun _ => id

theorem StyleEnvelope.GivenBy.heldBy {envelope : StyleEnvelope}
    (given : envelope.GivenBy members) : envelope.HeldBy members where
  validation := given.validation.imp fun _ _ answer =>
    answer.isRecordOf fun _ => StyleAnswer.GivenBy.heldBy

end

/-- Every text that spells an answer is decoded to this answer: for the markup service and for the
    style sheet service. -/
theorem read_of_spelledBy :
    (∀ (answer : MarkupAnswer) (text : String), answer.SpelledBy text →
      MarkupAnswer.read text = some answer) ∧
    ∀ (envelope : StyleEnvelope) (text : String), envelope.SpelledBy text →
      StyleEnvelope.read text = some envelope := by
  constructor
  · rintro answer text ⟨value, own, spelled⟩
    rw [MarkupAnswer.read, read_of_spelledText spelled, Option.bind_some]
    refine (MarkupAnswer.ofJson?_eq_some_iff value answer).mpr ?_
    exact own.isRecordOf fun _ => MarkupAnswer.GivenBy.heldBy
  · rintro envelope text ⟨value, own, spelled⟩
    rw [StyleEnvelope.read, read_of_spelledText spelled, Option.bind_some]
    refine (StyleEnvelope.ofJson?_eq_some_iff value envelope).mpr ?_
    exact own.isRecordOf fun _ => StyleEnvelope.GivenBy.heldBy

/-- A member that nobody asks for comes first, with half a pair inside. The name and the text of
    the type are escaped. -/
theorem read_of_spelledBy_escaped :
    let text := " \x7b\"x\":[ \"\\ud800\"],\"messages\":[\x7b\"\\u0074ype\" :" ++
      "\"\\uD83D\\ude00\"\x7d]\x7d\n"
    let answer : MarkupAnswer := ⟨some [{ kind := "😀" }]⟩
    answer.SpelledBy text ∧ MarkupAnswer.read text = some answer ∧
      (⟨none⟩ : StyleEnvelope).SpelledBy "\x7b\x7d" ∧
      StyleEnvelope.read "\x7b\x7d" = some ⟨none⟩ := by
  intro text answer
  have typeName : SpelledLiteral (some "type") ['\\', 'u', '0', '0', '7', '4', 'y', 'p', 'e'] :=
    .text (.unit (hexDigit_hexChar 0 (by decide)) (hexDigit_hexChar 0 (by decide))
        (hexDigit_hexChar 7 (by decide)) (hexDigit_hexChar 4 (by decide))
        (.bare (by decide) (by decide) (by decide) (.bare (by decide) (by decide) (by decide)
          (.bare (by decide) (by decide) (by decide) .nil))))
      (.unit 't' (.char 'y' (.char 'p' (.char 'e' .nil))))
  have face : SpelledLiteral (some "😀")
      ['\\', 'u', 'D', '8', '3', 'D', '\\', 'u', 'd', 'e', '0', '0'] :=
    .text (.unit (@HexDigit.upper 13 (by decide)) (hexDigit_hexChar 8 (by decide))
        (hexDigit_hexChar 3 (by decide)) (@HexDigit.upper 13 (by decide))
        (.unit (hexDigit_hexChar 13 (by decide)) (hexDigit_hexChar 14 (by decide))
          (hexDigit_hexChar 0 (by decide)) (hexDigit_hexChar 0 (by decide)) .nil))
      (.pair '😀' (by decide) .nil)
  have empty : ∀ c ∈ [], isSpace c := List.forall_mem_nil _
  have space : ∀ c ∈ [' '], isSpace c := List.forall_mem_singleton.mpr rfl
  have newLine : ∀ c ∈ ['\n'], isSpace c := List.forall_mem_singleton.mpr rfl
  let kind : MemberSpelling :=
    { key := some "type", value := .string (some "😀"), gap := [' '], lead := []
      name := ['\\', 'u', '0', '0', '7', '4', 'y', 'p', 'e']
      body := ['"', '\\', 'u', 'D', '8', '3', 'D', '\\', 'u', 'd', 'e', '0', '0', '"']
      spelled := typeName, blankGap := space, blankLead := empty }
  let unknown : MemberSpelling :=
    { key := some "x", value := .array [.string none], name := ['x'], gap := [], lead := []
      body := ['[', ' ', '"', '\\', 'u', 'd', '8', '0', '0', '"', ']']
      spelled := spelledLiteral_literal (some "x"), blankGap := empty, blankLead := empty }
  let messages : MemberSpelling :=
    { key := some "messages", value := .array [.object [kind.member]], gap := [], lead := []
      name := ['m', 'e', 's', 's', 'a', 'g', 'e', 's']
      body := '[' :: '\x7b' :: (kind.text ++ ['\x7d', ']'])
      spelled := spelledLiteral_literal (some "messages")
      blankGap := empty, blankLead := empty }
  have nested : Spelled unknown.value unknown.body :=
    @Spelled.array [(.string none, quoted none)] _
      (List.forall_mem_singleton.mpr (.string (spelledLiteral_literal none)))
      (@Listed.last [' '] (quoted none) [] space empty)
  have item : Spelled (.object [kind.member]) ('\x7b' :: (kind.text ++ ['\x7d'])) :=
    @Spelled.object [kind] _ (List.forall_mem_singleton.mpr (.string face))
      (.alone kind.text)
  have items : Spelled messages.value messages.body :=
    @Spelled.array [(.object [kind.member], '\x7b' :: (kind.text ++ ['\x7d']))] _
      (List.forall_mem_singleton.mpr item) (.alone _)
  have whole : SpelledText (.object [unknown.member, messages.member])
      (' ' :: '\x7b' :: (unknown.text ++ ',' :: (messages.text ++ ['\x7d', '\n']))) :=
    @SpelledText.intro _ [' '] _ ['\n'] space
      (@Spelled.object [unknown, messages] _ (by simp [nested, items])
        (@Listed.cons [] unknown.text [] _ _ empty empty
          (.alone messages.text))) newLine
  have spelled : answer.SpelledBy text := by
    have characters : text.toList =
        ' ' :: '\x7b' :: (unknown.text ++ ',' :: (messages.text ++ ['\x7d', '\n'])) := by
      simp [text, unknown, messages, kind, MemberSpelling.text]
    have named : ∀ member ∈ [unknown.member, messages.member], member.1.isSome := by
      simp [unknown, messages, MemberSpelling.member]
    have own : MarkupMessage.GivenBy { kind := "😀" } [kind.member] :=
      { kind := .given "😀", lastLine := .omitted, lastColumn := .omitted, message := .omitted }
    exact ⟨_, ⟨_, rfl, named, ⟨.given ⟨[.object [kind.member]], rfl,
      .cons ⟨_, rfl, List.forall_mem_singleton.mpr rfl, own⟩ .nil⟩⟩⟩, characters ▸ whole⟩
  have nothing : (⟨none⟩ : StyleEnvelope).SpelledBy "\x7b\x7d" :=
    ⟨_, ⟨[], rfl, List.forall_mem_nil _, ⟨.omitted⟩⟩,
      .of_spelled (@Spelled.emptyObject [] empty)⟩
  exact ⟨spelled, read_of_spelledBy.1 answer text spelled, nothing,
    read_of_spelledBy.2 ⟨none⟩ _ nothing⟩

end PageCheck
