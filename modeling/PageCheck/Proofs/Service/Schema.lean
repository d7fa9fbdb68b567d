import PageCheck.Proofs.Service.Records

/-! # What is decoded

The decoders take exactly the values that follow their schemas. At every level a record may be
spelled as an object or by position, and both come to the same; what an object holds beyond the
named members is of no account, and a named member that occurs twice is an error.
-/

namespace PageCheck

open Json

structure MarkupMessage.Schema (members : List (Meaning × Json)) : Prop where
  kind : IsTextOrAbsent (valuesOf "type" members)
  lastLine : IsOptional IsAnyPosition (valuesOf "lastLine" members)
  lastColumn : IsOptional IsAnyPosition (valuesOf "lastColumn" members)
  message : IsOptional IsAnyText (valuesOf "message" members)

structure MarkupAnswer.Schema (members : List (Meaning × Json)) : Prop where
  messages : IsOptional (IsListOf (IsRecordOf MarkupMessage.names MarkupMessage.Schema))
    (valuesOf "messages" members)

structure StyleMessage.Schema (members : List (Meaning × Json)) : Prop where
  line : IsOptional IsAnyPosition (valuesOf "line" members)
  message : IsOptional IsAnyText (valuesOf "message" members)

structure StyleAnswer.Schema (members : List (Meaning × Json)) : Prop where
  errors : IsOptional (IsListOf (IsRecordOf StyleMessage.names StyleMessage.Schema))
    (valuesOf "errors" members)
  warnings : IsOptional (IsListOf (IsRecordOf StyleMessage.names StyleMessage.Schema))
    (valuesOf "warnings" members)

structure StyleEnvelope.Schema (members : List (Meaning × Json)) : Prop where
  validation : IsOptional (IsRecordOf StyleAnswer.names StyleAnswer.Schema)
    (valuesOf "cssvalidation" members)

/-- The members give the fields of an item of the markup service. -/
structure MarkupMessage.GivenBy (item : MarkupMessage) (members : List (Meaning × Json)) :
    Prop where
  kind : TextField item.kind (valuesOf "type" members)
  lastLine : OptionalField IsPosition item.lastLine (valuesOf "lastLine" members)
  lastColumn : OptionalField IsPosition item.lastColumn (valuesOf "lastColumn" members)
  message : OptionalField IsText item.message (valuesOf "message" members)

structure StyleMessage.GivenBy (item : StyleMessage) (members : List (Meaning × Json)) : Prop where
  line : OptionalField IsPosition item.line (valuesOf "line" members)
  message : OptionalField IsText item.message (valuesOf "message" members)

/-- The members give the messages of an answer, whichever way each message is spelled. -/
structure MarkupAnswer.HeldBy (answer : MarkupAnswer) (members : List (Meaning × Json)) :
    Prop where
  messages : OptionalField (IsList fun item => IsRecordOf MarkupMessage.names item.GivenBy)
    answer.messages (valuesOf "messages" members)

structure StyleAnswer.HeldBy (answer : StyleAnswer) (members : List (Meaning × Json)) : Prop where
  errors : OptionalField (IsList fun item => IsRecordOf StyleMessage.names item.GivenBy)
    answer.errors (valuesOf "errors" members)
  warnings : OptionalField (IsList fun item => IsRecordOf StyleMessage.names item.GivenBy)
    answer.warnings (valuesOf "warnings" members)

structure StyleEnvelope.HeldBy (envelope : StyleEnvelope) (members : List (Meaning × Json)) :
    Prop where
  validation : OptionalField (fun answer => IsRecordOf StyleAnswer.names answer.HeldBy)
    envelope.validation (valuesOf "cssvalidation" members)

section Possible

variable (members : List (Meaning × Json))

theorem MarkupMessage.exists_givenBy_iff :
    (∃ item : MarkupMessage, item.GivenBy members) ↔ Schema members := by
  constructor
  · rintro ⟨item, given⟩
    exact
      { kind := exists_textField_iff.mp ⟨_, given.kind⟩
        lastLine := (exists_optionalField_iff exists_isPosition_iff).mp ⟨_, given.lastLine⟩
        lastColumn := (exists_optionalField_iff exists_isPosition_iff).mp ⟨_, given.lastColumn⟩
        message := (exists_optionalField_iff exists_isText_iff).mp ⟨_, given.message⟩ }
  · intro schema
    obtain ⟨kind, givesKind⟩ := exists_textField_iff.mpr schema.kind
    obtain ⟨lastLine, givesLine⟩ :=
      (exists_optionalField_iff exists_isPosition_iff).mpr schema.lastLine
    obtain ⟨lastColumn, givesColumn⟩ :=
      (exists_optionalField_iff exists_isPosition_iff).mpr schema.lastColumn
    obtain ⟨message, givesMessage⟩ :=
      (exists_optionalField_iff exists_isText_iff).mpr schema.message
    exact ⟨⟨kind, lastLine, lastColumn, message⟩,
      ⟨givesKind, givesLine, givesColumn, givesMessage⟩⟩

theorem MarkupAnswer.exists_heldBy_iff :
    (∃ answer : MarkupAnswer, answer.HeldBy members) ↔ Schema members := by
  have items :=
    exists_isList_iff (exists_isRecordOf_iff MarkupMessage.names MarkupMessage.exists_givenBy_iff)
  constructor
  · rintro ⟨answer, held⟩
    exact ⟨(exists_optionalField_iff items).mp ⟨_, held.messages⟩⟩
  · intro schema
    obtain ⟨messages, gives⟩ := (exists_optionalField_iff items).mpr schema.messages
    exact ⟨⟨messages⟩, ⟨gives⟩⟩

theorem StyleMessage.exists_givenBy_iff :
    (∃ item : StyleMessage, item.GivenBy members) ↔ Schema members := by
  constructor
  · rintro ⟨item, given⟩
    exact
      { line := (exists_optionalField_iff exists_isPosition_iff).mp ⟨_, given.line⟩
        message := (exists_optionalField_iff exists_isText_iff).mp ⟨_, given.message⟩ }
  · intro schema
    obtain ⟨line, givesLine⟩ := (exists_optionalField_iff exists_isPosition_iff).mpr schema.line
    obtain ⟨message, givesMessage⟩ :=
      (exists_optionalField_iff exists_isText_iff).mpr schema.message
    exact ⟨⟨line, message⟩, ⟨givesLine, givesMessage⟩⟩

theorem StyleAnswer.exists_heldBy_iff :
    (∃ answer : StyleAnswer, answer.HeldBy members) ↔ Schema members := by
  have items :=
    exists_isList_iff (exists_isRecordOf_iff StyleMessage.names StyleMessage.exists_givenBy_iff)
  constructor
  · rintro ⟨answer, held⟩
    exact
      { errors := (exists_optionalField_iff items).mp ⟨_, held.errors⟩
        warnings := (exists_optionalField_iff items).mp ⟨_, held.warnings⟩ }
  · intro schema
    obtain ⟨errors, givesErrors⟩ := (exists_optionalField_iff items).mpr schema.errors
    obtain ⟨warnings, givesWarnings⟩ := (exists_optionalField_iff items).mpr schema.warnings
    exact ⟨⟨errors, warnings⟩, ⟨givesErrors, givesWarnings⟩⟩

theorem StyleEnvelope.exists_heldBy_iff :
    (∃ envelope : StyleEnvelope, envelope.HeldBy members) ↔ Schema members := by
  have answer := exists_isRecordOf_iff StyleAnswer.names StyleAnswer.exists_heldBy_iff
  constructor
  · rintro ⟨envelope, held⟩
    exact ⟨(exists_optionalField_iff answer).mp ⟨_, held.validation⟩⟩
  · intro schema
    obtain ⟨validation, gives⟩ := (exists_optionalField_iff answer).mpr schema.validation
    exact ⟨⟨validation⟩, ⟨gives⟩⟩

end Possible

section Content

theorem MarkupMessage.ofJson?_of_fields {value : Json} {item : MarkupMessage}
    {kind line column message : Option Json} :
    value.fields? names = some [kind, line, column, message] →
      (ofJson? value = some item ↔
        (match kind with | none => some "" | some value => value.text?) = some item.kind ∧
          optional? position? line = some item.lastLine ∧
          optional? position? column = some item.lastColumn ∧
          optional? text? message = some item.message) := by
  intro found
  obtain ⟨_, _, _, _⟩ := item
  cases kind with
  | none => simp [ofJson?, found, Option.bind_eq_some_iff, and_assoc, and_comm, and_left_comm]
  | some kind => simp [ofJson?, found, Option.bind_eq_some_iff]

theorem MarkupMessage.ofJson?_eq_some_iff (value : Json) (item : MarkupMessage) :
    ofJson? value = some item ↔ IsRecordOf names item.GivenBy value := by
  have distinct : names.Nodup := by decide
  constructor
  · intro decoded
    obtain ⟨fields, found, -⟩ := Option.bind_eq_some_iff.mp decoded
    obtain ⟨members, gives, each⟩ := (fields?_eq_some_iff distinct).mp found
    obtain _ | ⟨kind, _ | ⟨line, _ | ⟨column, _ | ⟨message, _ | _⟩⟩⟩⟩ := each
    obtain ⟨readKind, readLine, readColumn, readMessage⟩ := (ofJson?_of_fields found).mp decoded
    exact ⟨members, gives,
      { kind := textField_iff.mpr ⟨_, kind, readKind⟩
        lastLine := (optionalField_iff position?_eq_some_iff rfl).mpr ⟨_, line, readLine⟩
        lastColumn := (optionalField_iff position?_eq_some_iff rfl).mpr ⟨_, column, readColumn⟩
        message := (optionalField_iff text?_eq_some_iff rfl).mpr ⟨_, message, readMessage⟩ }⟩
  · rintro ⟨members, gives, given⟩
    obtain ⟨_, kind, readKind⟩ := textField_iff.mp given.kind
    obtain ⟨_, line, readLine⟩ := (optionalField_iff position?_eq_some_iff rfl).mp given.lastLine
    obtain ⟨_, column, readColumn⟩ :=
      (optionalField_iff position?_eq_some_iff rfl).mp given.lastColumn
    obtain ⟨_, message, readMessage⟩ := (optionalField_iff text?_eq_some_iff rfl).mp given.message
    have found := (fields?_eq_some_iff distinct).mpr
      ⟨members, gives, .cons kind (.cons line (.cons column (.cons message .nil)))⟩
    exact (ofJson?_of_fields found).mpr ⟨readKind, readLine, readColumn, readMessage⟩

theorem MarkupAnswer.ofJson?_of_fields {value : Json} {answer : MarkupAnswer}
    {messages : Option Json} (found : value.fields? names = some [messages]) :
    ofJson? value = some answer ↔
      optional? (list? MarkupMessage.ofJson?) messages = some answer.messages := by
  obtain ⟨_⟩ := answer
  simp [ofJson?, found, Option.bind_eq_some_iff]

theorem MarkupAnswer.ofJson?_eq_some_iff (value : Json) (answer : MarkupAnswer) :
    ofJson? value = some answer ↔ IsRecordOf names answer.HeldBy value := by
  have distinct : names.Nodup := by decide
  have list := list?_eq_some_iff MarkupMessage.ofJson?_eq_some_iff
  constructor
  · intro decoded
    obtain ⟨fields, found, -⟩ := Option.bind_eq_some_iff.mp decoded
    obtain ⟨members, gives, each⟩ := (fields?_eq_some_iff distinct).mp found
    obtain _ | ⟨messages, _ | _⟩ := each
    have read := (ofJson?_of_fields found).mp decoded
    exact ⟨members, gives, ⟨(optionalField_iff list rfl).mpr ⟨_, messages, read⟩⟩⟩
  · rintro ⟨members, gives, held⟩
    obtain ⟨_, messages, read⟩ := (optionalField_iff list rfl).mp held.messages
    have found := (fields?_eq_some_iff distinct).mpr ⟨members, gives, .cons messages .nil⟩
    exact (ofJson?_of_fields found).mpr read

theorem StyleMessage.ofJson?_of_fields {value : Json} {item : StyleMessage}
    {line message : Option Json} (found : value.fields? names = some [line, message]) :
    ofJson? value = some item ↔
      optional? position? line = some item.line ∧ optional? text? message = some item.message := by
  obtain ⟨_, _⟩ := item
  simp [ofJson?, found, Option.bind_eq_some_iff]

theorem StyleMessage.ofJson?_eq_some_iff (value : Json) (item : StyleMessage) :
    ofJson? value = some item ↔ IsRecordOf names item.GivenBy value := by
  have distinct : names.Nodup := by decide
  constructor
  · intro decoded
    obtain ⟨fields, found, -⟩ := Option.bind_eq_some_iff.mp decoded
    obtain ⟨members, gives, each⟩ := (fields?_eq_some_iff distinct).mp found
    obtain _ | ⟨line, _ | ⟨message, _ | _⟩⟩ := each
    obtain ⟨readLine, readMessage⟩ := (ofJson?_of_fields found).mp decoded
    exact ⟨members, gives,
      { line := (optionalField_iff position?_eq_some_iff rfl).mpr ⟨_, line, readLine⟩
        message := (optionalField_iff text?_eq_some_iff rfl).mpr ⟨_, message, readMessage⟩ }⟩
  · rintro ⟨members, gives, given⟩
    obtain ⟨_, line, readLine⟩ := (optionalField_iff position?_eq_some_iff rfl).mp given.line
    obtain ⟨_, message, readMessage⟩ := (optionalField_iff text?_eq_some_iff rfl).mp given.message
    have found := (fields?_eq_some_iff distinct).mpr
      ⟨members, gives, .cons line (.cons message .nil)⟩
    exact (ofJson?_of_fields found).mpr ⟨readLine, readMessage⟩

theorem StyleAnswer.ofJson?_of_fields {value : Json} {answer : StyleAnswer}
    {errors warnings : Option Json} (found : value.fields? names = some [errors, warnings]) :
    ofJson? value = some answer ↔
      optional? (list? StyleMessage.ofJson?) errors = some answer.errors ∧
        optional? (list? StyleMessage.ofJson?) warnings = some answer.warnings := by
  obtain ⟨_, _⟩ := answer
  simp [ofJson?, found, Option.bind_eq_some_iff]

theorem StyleAnswer.ofJson?_eq_some_iff (value : Json) (answer : StyleAnswer) :
    ofJson? value = some answer ↔ IsRecordOf names answer.HeldBy value := by
  have distinct : names.Nodup := by decide
  have list := list?_eq_some_iff StyleMessage.ofJson?_eq_some_iff
  constructor
  · intro decoded
    obtain ⟨fields, found, -⟩ := Option.bind_eq_some_iff.mp decoded
    obtain ⟨members, gives, each⟩ := (fields?_eq_some_iff distinct).mp found
    obtain _ | ⟨errors, _ | ⟨warnings, _ | _⟩⟩ := each
    obtain ⟨readErrors, readWarnings⟩ := (ofJson?_of_fields found).mp decoded
    exact ⟨members, gives,
      { errors := (optionalField_iff list rfl).mpr ⟨_, errors, readErrors⟩
        warnings := (optionalField_iff list rfl).mpr ⟨_, warnings, readWarnings⟩ }⟩
  · rintro ⟨members, gives, held⟩
    obtain ⟨_, errors, readErrors⟩ := (optionalField_iff list rfl).mp held.errors
    obtain ⟨_, warnings, readWarnings⟩ := (optionalField_iff list rfl).mp held.warnings
    have found := (fields?_eq_some_iff distinct).mpr
      ⟨members, gives, .cons errors (.cons warnings .nil)⟩
    exact (ofJson?_of_fields found).mpr ⟨readErrors, readWarnings⟩

theorem StyleEnvelope.ofJson?_of_fields {value : Json} {envelope : StyleEnvelope}
    {validation : Option Json} (found : value.fields? names = some [validation]) :
    ofJson? value = some envelope ↔
      optional? StyleAnswer.ofJson? validation = some envelope.validation := by
  obtain ⟨_⟩ := envelope
  simp [ofJson?, found, Option.bind_eq_some_iff]

theorem StyleEnvelope.ofJson?_eq_some_iff (value : Json) (envelope : StyleEnvelope) :
    ofJson? value = some envelope ↔ IsRecordOf names envelope.HeldBy value := by
  have distinct : names.Nodup := by decide
  have answer := StyleAnswer.ofJson?_eq_some_iff
  constructor
  · intro decoded
    obtain ⟨fields, found, -⟩ := Option.bind_eq_some_iff.mp decoded
    obtain ⟨members, gives, each⟩ := (fields?_eq_some_iff distinct).mp found
    obtain _ | ⟨validation, _ | _⟩ := each
    have read := (ofJson?_of_fields found).mp decoded
    exact ⟨members, gives, ⟨(optionalField_iff answer rfl).mpr ⟨_, validation, read⟩⟩⟩
  · rintro ⟨members, gives, held⟩
    obtain ⟨_, validation, read⟩ := (optionalField_iff answer rfl).mp held.validation
    have found := (fields?_eq_some_iff distinct).mpr ⟨members, gives, .cons validation .nil⟩
    exact (ofJson?_of_fields found).mpr read

end Content

section Known

variable {members others : List (Meaning × Json)}

theorem MarkupMessage.GivenBy.congr {item : MarkupMessage} (given : item.GivenBy members)
    (same : ∀ name ∈ names, valuesOf name members = valuesOf name others) :
    item.GivenBy others where
  kind := same "type" (by decide) ▸ given.kind
  lastLine := same "lastLine" (by decide) ▸ given.lastLine
  lastColumn := same "lastColumn" (by decide) ▸ given.lastColumn
  message := same "message" (by decide) ▸ given.message

theorem MarkupAnswer.HeldBy.congr {answer : MarkupAnswer} (held : answer.HeldBy members)
    (same : ∀ name ∈ names, valuesOf name members = valuesOf name others) :
    answer.HeldBy others where
  messages := same "messages" (by decide) ▸ held.messages

theorem StyleMessage.GivenBy.congr {item : StyleMessage} (given : item.GivenBy members)
    (same : ∀ name ∈ names, valuesOf name members = valuesOf name others) :
    item.GivenBy others where
  line := same "line" (by decide) ▸ given.line
  message := same "message" (by decide) ▸ given.message

theorem StyleAnswer.HeldBy.congr {answer : StyleAnswer} (held : answer.HeldBy members)
    (same : ∀ name ∈ names, valuesOf name members = valuesOf name others) :
    answer.HeldBy others where
  errors := same "errors" (by decide) ▸ held.errors
  warnings := same "warnings" (by decide) ▸ held.warnings

theorem StyleEnvelope.HeldBy.congr {envelope : StyleEnvelope} (held : envelope.HeldBy members)
    (same : ∀ name ∈ names, valuesOf name members = valuesOf name others) :
    envelope.HeldBy others where
  validation := same "cssvalidation" (by decide) ▸ held.validation

end Known

/-- The records of both services, from an answer as a whole to a single message, are decoded just
    as their schemas have it; and every text is decoded as the value that it spells. -/
theorem decoders_follow_schema :
    Decodes MarkupAnswer.ofJson? MarkupAnswer.names MarkupAnswer.Schema MarkupAnswer.HeldBy ∧
    Decodes MarkupMessage.ofJson? MarkupMessage.names MarkupMessage.Schema MarkupMessage.GivenBy ∧
    Decodes StyleEnvelope.ofJson? StyleEnvelope.names StyleEnvelope.Schema StyleEnvelope.HeldBy ∧
    Decodes StyleAnswer.ofJson? StyleAnswer.names StyleAnswer.Schema StyleAnswer.HeldBy ∧
    Decodes StyleMessage.ofJson? StyleMessage.names StyleMessage.Schema StyleMessage.GivenBy ∧
    ∀ (value : Json) (text : String), SpelledText value text.toList →
      MarkupAnswer.read text = MarkupAnswer.ofJson? value ∧
        StyleEnvelope.read text = StyleEnvelope.ofJson? value := by
  refine ⟨?_, ?_, ?_, ?_, ?_, ?_⟩
  · exact .of_content MarkupAnswer.ofJson?_eq_some_iff MarkupAnswer.exists_heldBy_iff
      fun _ _ _ same held => held.congr same
  · exact .of_content MarkupMessage.ofJson?_eq_some_iff MarkupMessage.exists_givenBy_iff
      fun _ _ _ same given => given.congr same
  · exact .of_content StyleEnvelope.ofJson?_eq_some_iff StyleEnvelope.exists_heldBy_iff
      fun _ _ _ same held => held.congr same
  · exact .of_content StyleAnswer.ofJson?_eq_some_iff StyleAnswer.exists_heldBy_iff
      fun _ _ _ same held => held.congr same
  · exact .of_content StyleMessage.ofJson?_eq_some_iff StyleMessage.exists_givenBy_iff
      fun _ _ _ same given => given.congr same
  · intro value text spelled
    rw [MarkupAnswer.read, StyleEnvelope.read, read_of_spelledText spelled]
    exact ⟨rfl, rfl⟩

/-- An answer by position, whose only message is given by position as far as its line; the same
    message as an object; and an object with nothing but a member that nobody asks for. -/
theorem decoders_follow_schema_positional :
    let value : Json := .array [.array [.array [.string (some "error"), .natural 3]]]
    let text := "[[[\"error\",3]]]"
    let answer : MarkupAnswer := ⟨some [{ kind := "error", lastLine := some 3 }]⟩
    SpelledText value text.toList ∧ MarkupAnswer.read text = some answer ∧
      StyleEnvelope.read text = none ∧
      MarkupMessage.ofJson? (.array [.string (some "error"), .natural 3]) =
        MarkupMessage.ofJson?
          (.object [(some "type", .string (some "error")), (some "lastLine", .natural 3)]) ∧
      MarkupAnswer.ofJson? (.object [(some "x", .string none)]) =
        MarkupAnswer.ofJson? (.object []) := by
  intro value text answer
  have kind : Spelled (.string (some "error")) ['"', 'e', 'r', 'r', 'o', 'r', '"'] :=
    .string (spelledLiteral_literal (some "error"))
  have line : Spelled (.natural 3) ['3'] := .natural 3
  have nothing : ∀ c ∈ [], isSpace c := List.forall_mem_nil _
  have message : Spelled (.array [.string (some "error"), .natural 3]) "[\"error\",3]".toList :=
    @Spelled.array [(_, ['"', 'e', 'r', 'r', 'o', 'r', '"']), (_, ['3'])] _ (by simp [kind, line])
      (@Listed.cons [] _ [] _ _ nothing nothing (.alone ['3']))
  have messages : Spelled (.array [.array [.string (some "error"), .natural 3]])
      "[[\"error\",3]]".toList :=
    @Spelled.array [(_, "[\"error\",3]".toList)] _ (List.forall_mem_singleton.mpr message)
      (.alone _)
  have whole : Spelled value "[[[\"error\",3]]]".toList :=
    @Spelled.array [(_, "[[\"error\",3]]".toList)] _ (List.forall_mem_singleton.mpr messages)
      (.alone _)
  have spelled : SpelledText value text.toList := .of_spelled whole
  obtain ⟨answers, messages, -, -, -, texts⟩ := decoders_follow_schema
  obtain ⟨markup, style⟩ := texts value text spelled
  exact ⟨spelled, markup, style, messages.positional _ (by decide),
    answers.ignores [(some "x", .string none)] (List.forall_mem_singleton.mpr rfl)⟩

-- A type may be missing but, unlike a line, is never null.
example :
    MarkupMessage.ofJson? (.object [(some "lastLine", .null)]) = some {} ∧
      MarkupMessage.ofJson? (.object [(some "type", .null)]) = none :=
  ⟨rfl, rfl⟩

end PageCheck
