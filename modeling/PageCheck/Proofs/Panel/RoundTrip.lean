import Mathlib.Data.List.Forall2
import PageCheck.Program
import PageCheck.Proofs.Json.Sequence
import PageCheck.Proofs.Panel.Json
import PageCheck.Service.Decode

/-! # The printed runs, read back

What the JSON form of a batch tells of its runs, and that it tells all of it. The text divides into
one document for each run, in one way only, and from each document the run's path, entries and
status are read back as they were.
-/

namespace PageCheck

namespace Json

def natural? : Json → Option Nat
  | natural value => some value
  | _ => none

@[simp] theorem text?_ofText (text : String) : (ofText text).text? = some text := rfl

@[simp] theorem optional?_ofPosition (position : Option UInt32) :
    optional? position? (some (ofPosition position)) = some position := by
  cases position with
  | none => rfl
  | some number => simp [ofPosition, optional?, position?, number.toNat_lt_size]

theorem list?_map {α : Type} {read : Json → Option α} {write : α → Json}
    (inverse : ∀ item, read (write item) = some item) (items : List α) :
    list? read (.array (items.map write)) = some items := by
  rw [list?]
  induction items with
  | nil => rfl
  | cons item rest ih => simp [inverse, ih]

end Json

def EntryClass.ofName? (name : String) : Option EntryClass :=
  [EntryClass.plain, .info, .success, .warning, .error].find? (·.name = name)

@[simp] theorem EntryClass.ofName?_name (style : EntryClass) : ofName? style.name = some style := by
  cases style <;> decide

/-- The entry that a value is the JSON form of. -/
def Entry.ofJson? (value : Json) : Option Entry := do
  let kind ← (← value.member? "kind").text?
  let message ← (← value.member? "message").text?
  if kind = "progress" then return .progress message
  let style ← EntryClass.ofName? (← (← value.member? "class").text?)
  if kind = "plain" then
    return .plain message (← Json.optional? Json.text? (value.member? "detail")) style
  else if kind = "line" then
    let line ← Json.optional? Json.position? (value.member? "line")
    let column ← Json.optional? Json.position? (value.member? "column")
    return .finding line column message (← (← value.member? "preview").text?) style
  else none

theorem Entry.ofJson?_toJson (entry : Entry) : ofJson? entry.toJson = some entry := by
  cases entry with
  | progress message =>
      simp [toJson, ofJson?, Json.record, Json.member?, List.lookup_cons]
  | plain message detail style =>
      cases detail with
      | none => simp [toJson, ofJson?, Json.record, Json.member?, List.lookup_cons, Json.optional?]
      | some text =>
          simp [toJson, ofJson?, Json.record, Json.member?, List.lookup_cons, Json.ofText,
            Json.text?, Json.optional?]
  | finding line column message preview style =>
      simp [toJson, ofJson?, Json.record, Json.member?, List.lookup_cons]

/-- The summary of a run, as JSON. -/
def Status.toSummary (status : Status) : Json :=
  .record
    [("status", .ofText status.name), ("errors", .natural status.errors),
      ("warnings", .natural status.warnings)]

/-- The status that a summary tells of. -/
def Status.ofSummary? (summary : Json) : Option Status := do
  let name ← (← summary.member? "status").text?
  let errors ← (← summary.member? "errors").natural?
  let warnings ← (← summary.member? "warnings").natural?
  [Status.skipped, .completed errors warnings, .failed, .stale].find? (·.name = name)

theorem Status.ofSummary?_toSummary (status : Status) :
    ofSummary? status.toSummary = some status := by
  cases status <;>
    simp [toSummary, ofSummary?, Json.record, Json.member?, List.lookup_cons, Json.natural?, name,
      errors, warnings]

structure PrintedRun where
  path : String
  entries : List Entry
  status : Status
  deriving DecidableEq, Repr

namespace PrintedRun

def toJson (run : PrintedRun) : Json :=
  panelJson run.path run.entries run.status

/-- The run that a value is the JSON form of. -/
def ofJson? (value : Json) : Option PrintedRun := do
  let path ← (← value.member? "path").text?
  let entries ← (← value.member? "entries").list? Entry.ofJson?
  let status ← Status.ofSummary? (← value.member? "summary")
  return { path, entries, status }

theorem ofJson?_toJson (run : PrintedRun) : ofJson? run.toJson = some run := by
  have path : run.toJson.member? "path" = some (.ofText run.path) := rfl
  have entries : run.toJson.member? "entries" = some (.array (run.entries.map Entry.toJson)) := rfl
  have summary : run.toJson.member? "summary" = some run.status.toSummary := rfl
  simp only [ofJson?, path, entries, summary, Option.bind_eq_bind, Option.bind_some,
    Json.text?_ofText, Json.list?_map Entry.ofJson?_toJson, Status.ofSummary?_toSummary]
  rfl

end PrintedRun

namespace Json

theorem plain_record {members : List (String × Json)}
    (plain : ∀ member ∈ members, member.2.Plain) : (record members).Plain := by
  refine .object _ ?_
  intro member inside
  obtain ⟨own, listed, rfl⟩ := List.mem_map.mp inside
  exact plain own listed

theorem plain_ofText (text : String) : (ofText text).Plain :=
  .string (some text)

theorem plain_ofPosition (position : Option UInt32) : (ofPosition position).Plain := by
  cases position with
  | none => exact .null
  | some number => exact .natural _

end Json

theorem Entry.plain_toJson (entry : Entry) : entry.toJson.Plain := by
  cases entry with
  | progress message => exact Json.plain_record (by simp [Json.plain_ofText])
  | plain message detail style =>
      cases detail with
      | none => exact Json.plain_record (by simp [Json.plain_ofText])
      | some text => exact Json.plain_record (by simp [Json.plain_ofText])
  | finding line column message preview style =>
      exact Json.plain_record (by simp [Json.plain_ofText, Json.plain_ofPosition])

theorem Status.plain_toSummary (status : Status) : status.toSummary.Plain :=
  Json.plain_record (by simp [Json.plain_ofText, Json.Plain.natural])

namespace PrintedRun

theorem plain_toJson (run : PrintedRun) : run.toJson.Plain := by
  have path : (Json.ofText run.path).Plain := Json.plain_ofText run.path
  have entries : (Json.array (run.entries.map Entry.toJson)).Plain :=
    .array _ (by simp [Entry.plain_toJson])
  have summary : run.status.toSummary.Plain := run.status.plain_toSummary
  exact Json.plain_record (List.forall_mem_cons.mpr ⟨path, List.forall_mem_cons.mpr
    ⟨entries, List.forall_mem_singleton.mpr summary⟩⟩)

/-- The text of a run, read as JSON and then as a run, is this run. -/
theorem read_pretty (run : PrintedRun) : ∃ members,
    Json.read run.toJson.pretty = some (.object members) ∧
      ofJson? (.object members) = some run :=
  ⟨_, Json.read_pretty run.plain_toJson, run.ofJson?_toJson⟩

theorem pretty_inj {first second : PrintedRun}
    (same : first.toJson.pretty = second.toJson.pretty) : first = second := by
  have read := Json.read_pretty first.plain_toJson
  rw [same, Json.read_pretty second.plain_toJson, Option.some.injEq] at read
  have told := first.ofJson?_toJson
  rw [← read, ofJson?_toJson, Option.some.injEq] at told
  exact told.symm

theorem documents_pretty_append (run : PrintedRun) {rest : List Char} {texts : List String} :
    Json.Documents (run.toJson.pretty.toList ++ rest) texts ↔
      ∃ others, texts = run.toJson.pretty :: others ∧ Json.Documents rest others :=
  Json.documents_pretty_append run.plain_toJson

/-- Runs that are printed one after another, each with a line end, divide into their texts. -/
theorem documents_iff {runs : List PrintedRun} {texts : List String} :
    Json.Documents (String.join (runs.map (·.toJson.pretty ++ "\n"))).toList texts ↔
      texts = runs.map (·.toJson.pretty) := by
  induction runs generalizing texts with
  | nil => exact Json.documents_nil
  | cons run rest ih =>
      have cut : (String.join ((run :: rest).map (·.toJson.pretty ++ "\n"))).toList =
          run.toJson.pretty.toList ++
            '\n' :: (String.join (rest.map (·.toJson.pretty ++ "\n"))).toList := by
        simp [String.toList_join]
      have lineEnd : Json.isSpace '\n' := rfl
      rw [cut, documents_pretty_append]
      simp only [Json.documents_cons_blank lineEnd, ih, exists_eq_right, List.map_cons]

end PrintedRun

/-- What is printed of a run that a batch has handed over. -/
def Delivery.told (delivery : Delivery) : PrintedRun where
  path := delivery.document.path
  entries := delivery.entries
  status := delivery.status

namespace Surroundings

theorem print_json_output (around : Surroundings) (batch : Batch) :
    (around.print .json batch).output =
      String.join ((batch.deliveries.map Delivery.told).map (·.toJson.pretty ++ "\n")) := by
  rw [List.map_map]
  rfl

/-- The JSON output tells of every run of a batch, and of each without loss. In one way only it
    divides into documents: these are one object for each run, in order, from which the path, the
    entries and the status are read back. So two batches print the same text just when their runs
    are the same in all that is printed. -/
theorem print_json_lossless (around : Surroundings) (batch : Batch) :
    (∃ documents : List String,
      (∀ division, Json.Documents (around.print .json batch).output.toList division ↔
        division = documents) ∧
      List.Forall₂
        (fun document delivery => ∃ members, Json.read document = some (.object members) ∧
          PrintedRun.ofJson? (.object members) = some delivery.told)
        documents batch.deliveries) ∧
    ∀ (elsewhere : Surroundings) (other : Batch),
      (elsewhere.print .json other).output = (around.print .json batch).output ↔
        other.deliveries.map Delivery.told = batch.deliveries.map Delivery.told := by
  simp only [print_json_output]
  refine ⟨⟨(batch.deliveries.map Delivery.told).map (·.toJson.pretty),
    fun division => PrintedRun.documents_iff, ?_⟩, ?_⟩
  · rw [List.map_map, List.forall₂_map_left_iff, List.forall₂_same]
    exact fun delivery _ => delivery.told.read_pretty
  · intro elsewhere other
    constructor
    · intro same
      have division := PrintedRun.documents_iff.mpr
        (rfl : _ = (other.deliveries.map Delivery.told).map (·.toJson.pretty))
      rw [same, PrintedRun.documents_iff] at division
      exact List.map_injective_iff.mpr (fun _ _ => PrintedRun.pretty_inj) division
    · intro same
      rw [same]

end Surroundings

end PageCheck
