import PageCheck.Json.Writer
import PageCheck.Proofs.Json.Literal
import PageCheck.Proofs.Json.Reading

/-! # Reading what was written

Every value whose numbers are all naturals is read back from its indented form. The form is one of
the value's spellings, at any depth, so that the machine need not be followed along it.
-/

namespace PageCheck

namespace Json

/-- A value in which all numbers are naturals. -/
inductive Plain : Json → Prop where
  | null : Plain .null
  | bool (value : Bool) : Plain (.bool value)
  | natural (value : Nat) : Plain (.natural value)
  | string (text : Meaning) : Plain (.string text)
  | array (items : List Json) (plain : ∀ item ∈ items, Plain item) : Plain (.array items)
  | object (members : List (Meaning × Json)) (plain : ∀ member ∈ members, Plain member.2) :
    Plain (.object members)

theorem isSpace_of_mem_newLine {c : Char} {depth : Nat} (member : c ∈ newLine depth) :
    isSpace c := by
  rcases List.mem_cons.mp member with rfl | indent
  · rfl
  · rw [List.eq_of_mem_replicate indent]
    rfl

/-- How a member is written at the given depth. -/
def MemberSpelling.written (depth : Nat) (member : Meaning × Json) : MemberSpelling where
  key := member.1
  value := member.2
  name := literal member.1
  gap := []
  lead := [' ']
  body := write (depth + 1) member.2
  spelled := spelledLiteral_literal member.1
  blankGap := List.forall_mem_nil _
  blankLead := List.forall_mem_singleton.mpr rfl

theorem MemberSpelling.text_written (depth : Nat) (member : Meaning × Json) :
    (written depth member).text =
      quoted member.1 ++ [':', ' '] ++ write (depth + 1) member.2 := by
  simp [text, written, quoted]

theorem listed_items (depth : Nat) (first : Json) (rest : List Json) :
    Listed ((first :: rest).map (write (depth + 1)))
      (newLine (depth + 1) ++ write (depth + 1) first ++ writeItems depth rest ++
        newLine depth) := by
  induction rest generalizing first with
  | nil =>
      simpa [writeItems] using Listed.last (fun _ => isSpace_of_mem_newLine)
        (fun _ => isSpace_of_mem_newLine)
  | cons next others ih =>
      simpa [writeItems] using Listed.cons (fun _ => isSpace_of_mem_newLine)
        (List.forall_mem_nil _) (ih next)

theorem listed_members (depth : Nat) (first : Meaning × Json) (rest : List (Meaning × Json)) :
    Listed ((first :: rest).map fun member => (MemberSpelling.written depth member).text)
      (newLine (depth + 1) ++ (MemberSpelling.written depth first).text ++
        writeMembers depth rest ++ newLine depth) := by
  induction rest generalizing first with
  | nil =>
      simpa [writeMembers] using Listed.last (fun _ => isSpace_of_mem_newLine)
        (fun _ => isSpace_of_mem_newLine)
  | cons next others ih =>
      have shape : newLine (depth + 1) ++ (MemberSpelling.written depth first).text ++
          writeMembers depth (next :: others) ++ newLine depth =
            newLine (depth + 1) ++ ((MemberSpelling.written depth first).text ++ ([] ++ ',' ::
              (newLine (depth + 1) ++ (MemberSpelling.written depth next).text ++
                writeMembers depth others ++ newLine depth))) := by
        simp [writeMembers, MemberSpelling.text_written]
      rw [shape]
      exact .cons (fun _ => isSpace_of_mem_newLine) (List.forall_mem_nil _) (ih next)

/-- What is written for a value spells it, at any depth. -/
theorem spelled_write {value : Json} (plain : value.Plain) (depth : Nat) :
    Spelled value (write depth value) := by
  induction plain generalizing depth with
  | null => exact .null
  | bool value => cases value <;> rw [write] <;> constructor
  | natural value =>
      rw [write, Nat.toString_eq_ofList_toDigits, String.toList_ofList]
      exact .natural value
  | string text =>
      rw [write]
      exact .string (spelledLiteral_literal text)
  | array items _ ih =>
      cases items with
      | nil =>
          rw [write]
          exact .emptyArray (List.forall_mem_nil _)
      | cons first rest =>
          have spelled := @Spelled.array
            ((first :: rest).map fun item => (item, write (depth + 1) item))
          simp only [List.map_map, Function.comp_def, List.forall_mem_map, List.map_id'] at spelled
          have whole := spelled (fun item member => ih item member (depth + 1))
            (listed_items depth first rest)
          simpa [write] using whole
  | object members _ ih =>
      cases members with
      | nil =>
          rw [write]
          exact .emptyObject (List.forall_mem_nil _)
      | cons first rest =>
          have spelled := @Spelled.object ((first :: rest).map (MemberSpelling.written depth))
          have own (member : Meaning × Json) :
              (MemberSpelling.written depth member).member = member := rfl
          simp only [List.map_map, Function.comp_def, List.forall_mem_map, own, List.map_id']
            at spelled
          have whole := spelled (fun member inside => ih member inside (depth + 1))
            (listed_members depth first rest)
          simpa [write, MemberSpelling.text_written] using whole

/-- What is written for a value is read as this value, at any depth and whatever is open. -/
theorem Machine.reads_write {value : Json} (plain : value.Plain) (depth : Nat)
    (frames : List Frame) : Reads ⟨.value, frames⟩ (write depth value) value frames :=
  reads_of_spelled (spelled_write plain depth) frames

/-- The indented form of a value is read as this value. -/
theorem read_pretty {value : Json} (plain : value.Plain) : Json.read value.pretty = some value := by
  apply read_of_spelledText
  rw [pretty, String.toList_ofList]
  exact .of_spelled (spelled_write plain 0)

end Json

end PageCheck
