import Mathlib.Data.List.Forall2
import PageCheck.Proofs.Json.RoundTrip
import PageCheck.Service.Decode

/-! # Records

A record may be spelled as an object or by position. Either way it comes to members, and the values
under one name stand for a field. A decoder of records can be said to follow a schema for these: it
takes just the values whose members are as the schema has them, and makes of each what its members
give.
-/

namespace PageCheck

namespace Json

/-- The values of the members with a name, in the order of the members. -/
def valuesOf (name : String) (members : List (Meaning × Json)) : List Json :=
  (members.filter (·.1 = some name)).map Prod.snd

/-- The values under one name that stand for a field which may be absent. -/
inductive OptionalField {α : Type} (stands : α → Json → Prop) : Option α → List Json → Prop where
  | omitted : OptionalField stands none []
  | null : OptionalField stands none [.null]
  | given {a : α} {value : Json} (own : stands a value) : OptionalField stands (some a) [value]

/-- The values under one name that stand for a text which is empty if it is absent. -/
inductive TextField : String → List Json → Prop where
  | omitted : TextField "" []
  | given (text : String) : TextField text [.string (some text)]

def IsText (text : String) (value : Json) : Prop :=
  value = .string (some text)

def IsPosition (position : UInt32) (value : Json) : Prop :=
  value = .natural position.toNat

def IsList {α : Type} (stands : α → Json → Prop) (items : List α) (value : Json) : Prop :=
  ∃ values, value = .array values ∧ List.Forall₂ stands items values

/-- The members that a record gives. An object gives its own, which are named by texts; an array
    gives its items under the names of the fields in order, and has no more items than there are
    fields. -/
inductive Gives (names : List String) : Json → List (Meaning × Json) → Prop where
  | object {members : List (Meaning × Json)} (named : ∀ member ∈ members, member.1.isSome) :
      Gives names (.object members) members
  | array {items : List Json} (fits : items.length ≤ names.length) :
      Gives names (.array items) ((names.map some).zip items)

/-- The value is a record whose members give the fields. -/
def IsRecordOf (names : List String) (fields : List (Meaning × Json) → Prop) (value : Json) :
    Prop :=
  ∃ members, Gives names value members ∧ fields members

/-- The values under one name: at most one, which is null or of the given kind. -/
def IsOptional (kind : Json → Prop) (values : List Json) : Prop :=
  values = [] ∨ values = [.null] ∨ ∃ value, values = [value] ∧ kind value

/-- The values under one name: at most one, which is a text and not null. -/
def IsTextOrAbsent (values : List Json) : Prop :=
  values = [] ∨ ∃ text, values = [.string (some text)]

def IsAnyText (value : Json) : Prop :=
  ∃ text, value = .string (some text)

/-- A number written with digits alone, below 2 to the power of 32. -/
def IsAnyPosition (value : Json) : Prop :=
  ∃ number, value = .natural number ∧ number < UInt32.size

def IsListOf (kind : Json → Prop) (value : Json) : Prop :=
  ∃ items, value = .array items ∧ ∀ item ∈ items, kind item

variable {names : List String} {members : List (Meaning × Json)} {value : Json} {name : String}

theorem Gives.unique {others : List (Meaning × Json)} (gives : Gives names value members)
    (likewise : Gives names value others) : members = others := by
  cases gives <;> cases likewise <;> rfl

theorem valuesOf_cons (key : Meaning) (value : Json) (rest : List (Meaning × Json)) :
    valuesOf name ((key, value) :: rest) =
      if key = some name then value :: valuesOf name rest else valuesOf name rest := by
  unfold valuesOf
  by_cases own : key = some name
  · simp [own]
  · simp [own]

theorem valuesOf_zip_of_not_mem {items : List Json} (foreign : name ∉ names) :
    valuesOf name ((names.map some).zip items) = [] := by
  simp only [valuesOf, List.map_eq_nil_iff, List.filter_eq_nil_iff]
  intro member inside own
  obtain ⟨known, listed, same⟩ := List.mem_map.mp (List.of_mem_zip inside).1
  rw [decide_eq_true_eq, ← same, Option.some.injEq] at own
  exact foreign (own ▸ listed)

/-- Under its name, an item stands alone. -/
theorem valuesOf_zip (distinct : names.Nodup) {index : Nat} (named : names[index]? = some name)
    (items : List Json) :
    valuesOf name ((names.map some).zip items) = items[index]?.toList := by
  induction names generalizing index items with
  | nil => cases named
  | cons first rest ih =>
      obtain ⟨single, distinct⟩ := List.nodup_cons.mp distinct
      cases items with
      | nil => rfl
      | cons item items =>
          rw [List.map_cons, List.zip_cons_cons, valuesOf_cons]
          cases index with
          | zero =>
              obtain rfl := Option.some.inj named
              rw [if_pos rfl, valuesOf_zip_of_not_mem single]
              rfl
          | succ index =>
              rw [List.getElem?_cons_succ] at named
              have other : first ≠ name := by
                rintro rfl
                exact single (List.mem_of_getElem? named)
              rw [if_neg (by simpa using other), ih distinct named]
              rfl

theorem memberOnce?_eq (members : List (Meaning × Json)) (name : String) :
    memberOnce? members name =
      match valuesOf name members with
      | [] => some none
      | [value] => some (some value)
      | _ => none := by
  unfold memberOnce? valuesOf
  cases members.filter (·.1 = some name) with
  | nil => rfl
  | cons first rest => cases rest <;> rfl

theorem memberOnce?_eq_some_iff {found : Option Json} :
    memberOnce? members name = some found ↔ valuesOf name members = found.toList := by
  rw [memberOnce?_eq]
  cases valuesOf name members with
  | nil => cases found <;> simp
  | cons first rest =>
      cases rest with
      | nil => cases found <;> simp
      | cons second others => cases found <;> simp

theorem mapM_eq_some_iff {α β : Type} {read : α → Option β} {xs : List α} {ys : List β} :
    xs.mapM read = some ys ↔ List.Forall₂ (fun x y => read x = some y) xs ys := by
  induction xs generalizing ys with
  | nil => simp [eq_comm]
  | cons first rest ih =>
      rw [List.mapM_cons, List.forall₂_cons_left_iff]
      simp only [← ih]
      cases read first with
      | none => simp
      | some y =>
          cases rest.mapM read with
          | none => simp
          | some others => simp [eq_comm]

/-- The items of an array are the fields in their order, as far as they go. -/
theorem forall₂_memberOnce?_zip (distinct : names.Nodup) (items : List Json)
    {fields : List (Option Json)} :
    List.Forall₂ (fun name found => memberOnce? ((names.map some).zip items) name = some found)
        names fields ↔ (List.range names.length).map (items[·]?) = fields := by
  have alone (index : Nat) (bound : index < names.length) :
      memberOnce? ((names.map some).zip items) names[index] = some items[index]? :=
    memberOnce?_eq_some_iff.mpr (valuesOf_zip distinct (List.getElem?_eq_getElem bound) items)
  rw [List.forall₂_iff_get]
  constructor
  · rintro ⟨length, each⟩
    refine List.ext_getElem (by simpa using length) ?_
    intro index bound own
    have bound : index < names.length := by simpa using bound
    have field := (alone index bound).symm.trans (each index bound own)
    simpa using field
  · rintro rfl
    refine ⟨by simp, ?_⟩
    intro index bound _
    simpa using alone index bound

theorem fields?_eq_some_iff (distinct : names.Nodup) {fields : List (Option Json)} :
    value.fields? names = some fields ↔
      IsRecordOf names (fun members =>
        List.Forall₂ (fun name found => memberOnce? members name = some found) names fields)
        value := by
  constructor
  · intro found
    cases value with
    | object members =>
        simp only [fields?, Option.ite_none_right_eq_some, List.all_eq_true] at found
        exact ⟨members, .object found.1, mapM_eq_some_iff.mp found.2⟩
    | array items =>
        simp only [fields?, Option.ite_none_right_eq_some, Option.some.injEq] at found
        exact ⟨_, .array found.1, (forall₂_memberOnce?_zip distinct items).mpr found.2⟩
    | null | bool | natural | numeral | string => cases found
  · rintro ⟨members, gives, each⟩
    cases gives with
    | object named =>
        rw [fields?, if_pos (List.all_eq_true.mpr named)]
        exact mapM_eq_some_iff.mpr each
    | array fits =>
        rw [fields?, if_pos fits]
        exact congrArg some ((forall₂_memberOnce?_zip distinct _).mp each)

section Reading

variable {α : Type} {stands : α → Json → Prop} {kind : Json → Prop} {read : Json → Option α}

/-- A value under a name is null, or it is what is read. -/
theorem optional?_some_eq_some_iff {value : Json} {field : Option α}
    (notNull : read .null = none) :
    optional? read (some value) = some field ↔
      (value = .null ∧ field = none) ∨ ∃ a, read value = some a ∧ field = some a := by
  cases value with
  | null => simp [optional?, notNull, eq_comm]
  | bool | natural | numeral | string | array | object =>
      simp [optional?, Option.map_eq_some_iff, @eq_comm _ _ field]

theorem optionalField_iff (reads : ∀ value a, read value = some a ↔ stands a value)
    (notNull : read .null = none) {field : Option α} :
    OptionalField stands field (valuesOf name members) ↔
      ∃ found, memberOnce? members name = some found ∧ optional? read found = some field := by
  simp only [memberOnce?_eq_some_iff]
  generalize valuesOf name members = values
  constructor
  · intro given
    cases given with
    | omitted => exact ⟨none, rfl, rfl⟩
    | null => exact ⟨some .null, rfl, rfl⟩
    | @given a value own =>
        have decoded := (reads value a).mpr own
        exact ⟨some value, rfl, (optional?_some_eq_some_iff notNull).mpr (.inr ⟨a, decoded, rfl⟩)⟩
  · rintro ⟨found, rfl, decoded⟩
    cases found with
    | none =>
        obtain rfl := Option.some.inj decoded
        exact .omitted
    | some value =>
        rcases (optional?_some_eq_some_iff notNull).mp decoded with ⟨rfl, rfl⟩ | ⟨a, own, rfl⟩
        · exact .null
        · exact .given ((reads value a).mp own)

theorem textField_iff {text : String} :
    TextField text (valuesOf name members) ↔
      ∃ found, memberOnce? members name = some found ∧
        (match found with | none => some "" | some value => value.text?) = some text := by
  simp only [memberOnce?_eq_some_iff]
  generalize valuesOf name members = values
  constructor
  · intro given
    cases given with
    | omitted => exact ⟨none, rfl, rfl⟩
    | given => exact ⟨some (.string (some text)), rfl, rfl⟩
  · rintro ⟨found, rfl, decoded⟩
    cases found with
    | none =>
        obtain rfl := Option.some.inj decoded
        exact .omitted
    | some value =>
        cases value with
        | string content =>
            obtain rfl : content = some text := decoded
            exact .given text
        | null | bool | natural | numeral | array | object => cases decoded

theorem text?_eq_some_iff (value : Json) (text : String) :
    value.text? = some text ↔ IsText text value := by
  constructor
  · intro decoded
    cases value with
    | string content => exact congrArg Json.string decoded
    | null | bool | natural | numeral | array | object => cases decoded
  · rintro rfl
    rfl

theorem position?_eq_some_iff (value : Json) (position : UInt32) :
    value.position? = some position ↔ IsPosition position value := by
  constructor
  · intro decoded
    cases value with
    | natural number =>
        simp only [position?, Option.ite_none_right_eq_some, Option.some.injEq] at decoded
        obtain ⟨small, rfl⟩ := decoded
        rw [IsPosition, UInt32.toNat_ofNat_of_lt' small]
    | null | bool | numeral | string | array | object => cases decoded
  · rintro rfl
    rw [position?, if_pos position.toNat_lt, UInt32.ofNat_toNat]

theorem list?_eq_some_iff (reads : ∀ value a, read value = some a ↔ stands a value)
    (value : Json) (items : List α) :
    list? read value = some items ↔ IsList stands items value := by
  constructor
  · intro decoded
    cases value with
    | array values =>
        refine ⟨values, rfl, ?_⟩
        simpa only [reads] using (mapM_eq_some_iff.mp decoded).flip
    | null | bool | natural | numeral | string | object => cases decoded
  · rintro ⟨values, rfl, each⟩
    refine mapM_eq_some_iff.mpr ?_
    simpa only [reads] using each.flip

theorem exists_optionalField_iff (possible : ∀ value, (∃ a, stands a value) ↔ kind value)
    {values : List Json} :
    (∃ field, OptionalField stands field values) ↔ IsOptional kind values := by
  constructor
  · rintro ⟨field, given⟩
    cases given with
    | omitted => exact .inl rfl
    | null => exact .inr (.inl rfl)
    | given own => exact .inr (.inr ⟨_, rfl, (possible _).mp ⟨_, own⟩⟩)
  · rintro (rfl | rfl | ⟨value, rfl, own⟩)
    · exact ⟨none, .omitted⟩
    · exact ⟨none, .null⟩
    · obtain ⟨a, own⟩ := (possible value).mpr own
      exact ⟨_, .given own⟩

theorem exists_textField_iff {values : List Json} :
    (∃ text, TextField text values) ↔ IsTextOrAbsent values := by
  constructor
  · rintro ⟨text, given⟩
    cases given with
    | omitted => exact .inl rfl
    | given => exact .inr ⟨text, rfl⟩
  · rintro (rfl | ⟨text, rfl⟩)
    · exact ⟨"", .omitted⟩
    · exact ⟨text, .given text⟩

theorem exists_isText_iff (value : Json) : (∃ text, IsText text value) ↔ IsAnyText value :=
  Iff.rfl

theorem exists_isPosition_iff (value : Json) :
    (∃ position, IsPosition position value) ↔ IsAnyPosition value := by
  constructor
  · rintro ⟨position, rfl⟩
    exact ⟨position.toNat, rfl, position.toNat_lt⟩
  · rintro ⟨number, rfl, small⟩
    exact ⟨UInt32.ofNat number, by rw [IsPosition, UInt32.toNat_ofNat_of_lt' small]⟩

theorem exists_isList_iff (possible : ∀ value, (∃ a, stands a value) ↔ kind value) (value : Json) :
    (∃ items, IsList stands items value) ↔ IsListOf kind value := by
  constructor
  · rintro ⟨items, values, rfl, each⟩
    refine ⟨values, rfl, ?_⟩
    induction each with
    | nil => exact List.forall_mem_nil _
    | cons own _ ih => exact List.forall_mem_cons.mpr ⟨(possible _).mp ⟨_, own⟩, ih⟩
  · rintro ⟨values, rfl, each⟩
    induction values with
    | nil => exact ⟨[], [], rfl, .nil⟩
    | cons first rest ih =>
        obtain ⟨own, each⟩ := List.forall_mem_cons.mp each
        obtain ⟨a, own⟩ := (possible first).mpr own
        obtain ⟨items, values, same, others⟩ := ih each
        obtain rfl := Json.array.inj same
        exact ⟨a :: items, _, rfl, .cons own others⟩

theorem exists_isRecordOf_iff (names : List String) {gives : α → List (Meaning × Json) → Prop}
    {schema : List (Meaning × Json) → Prop}
    (possible : ∀ members, (∃ a, gives a members) ↔ schema members) (value : Json) :
    (∃ a, IsRecordOf names (gives a) value) ↔ IsRecordOf names schema value := by
  simp only [IsRecordOf, ← possible]
  constructor
  · rintro ⟨a, members, gave, holds⟩
    exact ⟨members, gave, a, holds⟩
  · rintro ⟨members, gave, a, holds⟩
    exact ⟨a, members, gave, holds⟩

end Reading

end Json

open Json

/-- A decoder takes just the records whose members follow the schema, makes of each what its members
    give, and tells neither the two spellings of a record apart nor objects that differ in other
    members. -/
structure Decodes {α : Type} (decode : Json → Option α) (names : List String)
    (schema : List (Meaning × Json) → Prop) (gives : α → List (Meaning × Json) → Prop) :
    Prop where
  accepts : ∀ value, (∃ a, decode value = some a) ↔ IsRecordOf names schema value
  content : ∀ value a, decode value = some a ↔ IsRecordOf names (gives a) value
  positional : ∀ items : List Json, items.length ≤ names.length →
    decode (.array items) = decode (.object ((names.map some).zip items))
  ignores : ∀ members, (∀ member ∈ members, member.1.isSome) →
    decode (.object members) =
      decode (.object (members.filter fun member => names.any (member.1 = some ·)))

section Decoding

variable {α : Type} {decode : Json → Option α} {names : List String}
  {schema : List (Meaning × Json) → Prop} {gives : α → List (Meaning × Json) → Prop}

theorem decode_congr (content : ∀ value a, decode value = some a ↔ IsRecordOf names (gives a) value)
    (known : ∀ a members others, (∀ name ∈ names, valuesOf name members = valuesOf name others) →
      gives a members → gives a others)
    {value other : Json} {members others : List (Meaning × Json)}
    (own : Gives names value members) (likewise : Gives names other others)
    (same : ∀ name ∈ names, valuesOf name members = valuesOf name others) :
    decode value = decode other := by
  apply Option.ext
  intro a
  rw [content value a, content other a]
  constructor
  · rintro ⟨found, gave, holds⟩
    obtain rfl := gave.unique own
    exact ⟨others, likewise, known a found others same holds⟩
  · rintro ⟨found, gave, holds⟩
    obtain rfl := gave.unique likewise
    refine ⟨members, own, known a found members ?_ holds⟩
    intro name listed
    exact (same name listed).symm

theorem valuesOf_filter {name : String} (listed : name ∈ names) (members : List (Meaning × Json)) :
    valuesOf name (members.filter fun member => names.any (member.1 = some ·)) =
      valuesOf name members := by
  unfold valuesOf
  rw [List.filter_filter]
  congr 1
  apply List.filter_congr
  intro member _
  by_cases own : member.1 = some name
  · simp [own, listed]
  · simp [own]

theorem Decodes.of_content
    (content : ∀ value a, decode value = some a ↔ IsRecordOf names (gives a) value)
    (possible : ∀ members, (∃ a, gives a members) ↔ schema members)
    (known : ∀ a members others, (∀ name ∈ names, valuesOf name members = valuesOf name others) →
      gives a members → gives a others) : Decodes decode names schema gives where
  accepts := by
    intro value
    simp only [content]
    exact exists_isRecordOf_iff names possible value
  content := content
  positional := by
    intro items fits
    refine decode_congr content known (.array fits) (.object ?_) (fun _ _ => rfl)
    intro member inside
    obtain ⟨name, -, same⟩ := List.mem_map.mp (List.of_mem_zip inside).1
    rw [← same]
    rfl
  ignores := by
    intro members named
    refine decode_congr content known (.object named) (.object ?_) ?_
    · intro member inside
      exact named member (List.mem_filter.mp inside).1
    · intro name listed
      exact (valuesOf_filter listed members).symm

end Decoding

end PageCheck
