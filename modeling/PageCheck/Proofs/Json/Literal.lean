import PageCheck.Proofs.Json.Spelling

/-! # Literals that are read as they were meant

What is written for a text is one of its spellings, and so it is read as this text. Each character
is written in one of three forms.
-/

namespace PageCheck.Json

/-- How a character is written. -/
inductive Written (c : Char) : List Char → Prop where
  /-- As itself. -/
  | bare (notQuote : c ≠ '"') (notEscape : c ≠ '\\') (printable : 0x20 ≤ c.toNat) : Written c [c]
  /-- By one letter behind a backslash. -/
  | short (letter : Char) (named : shortEscape? letter = some c) : Written c ['\\', letter]
  /-- By its number, of which two digits suffice. -/
  | unit (control : c.toNat < 0x20) :
    Written c ['\\', 'u', '0', '0', hexChar (c.toNat / 16), hexChar (c.toNat % 16)]

theorem written_encodeChar (c : Char) : Written c (encodeChar c) := by
  unfold encodeChar
  split
  · next quote => exact .short '"' (by rw [quote]; rfl)
  split
  · next backslash => exact .short '\\' (by rw [backslash]; rfl)
  split
  · next backspace => exact .short 'b' (by rw [backspace]; rfl)
  split
  · next tab => exact .short 't' (by rw [tab]; rfl)
  split
  · next lineFeed => exact .short 'n' (by rw [lineFeed]; rfl)
  split
  · next formFeed => exact .short 'f' (by rw [formFeed]; rfl)
  split
  · next ret => exact .short 'r' (by rw [ret]; rfl)
  split
  · next control => exact .unit control
  · next notQuote notEscape _ _ _ _ _ printable =>
      exact .bare notQuote notEscape (Nat.le_of_not_lt printable)

theorem mem_shortEscapes {letter c : Char} (named : shortEscape? letter = some c) :
    (letter, c) ∈ shortEscapes := by
  unfold shortEscape? at named
  split at named <;> cases named <;> decide

theorem hexDigit_hexChar (value : Nat) (small : value < 16) : HexDigit (hexChar value) value := by
  have same : ∀ value < 16, hexChar value = value.digitChar := by decide
  rw [same value small]
  exact .lower small

/-- A form in which a character is written spells a piece that denotes this character. -/
theorem Written.exists_piece {c : Char} {form : List Char} (written : Written c form) :
    ∃ piece, (∀ pieces cs, SpelledPieces pieces cs →
        SpelledPieces (piece :: pieces) (form ++ cs)) ∧
      ∀ pieces cs, Denotes pieces cs → Denotes (piece :: pieces) (c :: cs) := by
  cases written with
  | bare notQuote notEscape printable =>
      exact ⟨.char c, fun _ _ rest => .bare notQuote notEscape printable rest,
        fun _ _ rest => .char c rest⟩
  | short letter named =>
      exact ⟨.char c, fun _ _ rest => .short (mem_shortEscapes named) rest,
        fun _ _ rest => .char c rest⟩
  | unit control =>
      have zero : HexDigit '0' 0 := hexDigit_hexChar 0 (by decide)
      have high := hexDigit_hexChar (c.toNat / 16) (by omega)
      have low := hexDigit_hexChar (c.toNat % 16) (by omega)
      have value : ((0 * 16 + 0) * 16 + c.toNat / 16) * 16 + c.toNat % 16 = c.toNat := by omega
      refine ⟨.unit c.toNat, fun pieces cs rest => ?_, fun _ _ rest => .unit c rest⟩
      have spelled := SpelledPieces.unit zero zero high low rest
      rwa [value] at spelled

theorem spelledLiteral_literal (meaning : Meaning) : SpelledLiteral meaning (literal meaning) := by
  cases meaning with
  | none =>
      have spelled : SpelledPieces [.unit 0xD800] ['\\', 'u', 'd', '8', '0', '0'] :=
        .unit (hexDigit_hexChar 13 (by decide)) (hexDigit_hexChar 8 (by decide))
          (hexDigit_hexChar 0 (by decide)) (hexDigit_hexChar 0 (by decide)) .nil
      refine .broken spelled ?_
      intro text denotes
      cases denotes.joinPieces_eq
  | some text =>
      have written (cs : List Char) : ∃ pieces,
          SpelledPieces pieces (cs.flatMap encodeChar) ∧ Denotes pieces cs := by
        induction cs with
        | nil => exact ⟨[], .nil, .nil⟩
        | cons c rest ih =>
            obtain ⟨pieces, spelled, denotes⟩ := ih
            obtain ⟨piece, first, whole⟩ := (written_encodeChar c).exists_piece
            exact ⟨piece :: pieces, first _ _ spelled, whole _ _ denotes⟩
      obtain ⟨pieces, spelled, denotes⟩ := written text.toList
      rw [← String.ofList_toList (s := text)]
      exact .text (by rwa [literal, encode, String.toList_ofList]) denotes

end PageCheck.Json
