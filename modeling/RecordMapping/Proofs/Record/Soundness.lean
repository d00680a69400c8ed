import RecordMapping.Proofs.Record.RoundTrip
import RecordMapping.Proofs.Record.Taking

/-!
# What was read can be written

Loading and storing each have their own cases over field types. They agree, but for the physical
values that loading passes through as they are: a value that was loaded is stored again under its
type exactly if the physical value suits the type (`FieldType.Suits`). So a record that was decoded
is encoded again exactly if all physical values of its row suit (`decode_sound`).
-/

namespace RecordMapping

/-! ## Values -/

namespace FieldType

/-- The physical values that are stored again once they were loaded. Numbers and texts are of one
kind each, and the text of a document holds one of the kind of its type, or null. -/
def Suits : FieldType → Datum → Prop
  | .number, .boolean (some _) | .number, .text (some _) | .number, .binary (some _) => False
  | .string, .text _ | .string, .binary _ => True
  | .string, d => d.isNull = true
  | .object, .text (some text) =>
    ∀ json ∈ Json.parse text, json = .null ∨ ∃ members, json = .object members
  | .array, .text (some text) =>
    ∀ json ∈ Json.parse text, json = .null ∨ ∃ items, json = .array items
  | _, _ => True

/-- A null suits every type. -/
theorem suits_of_isNull {d : Datum} (h : d.isNull = true) (type : FieldType) : type.Suits d := by
  cases d with
  | boolean v | int32 v | int64 v | uint32 v | uint64 v | float v | double v | text v | binary v =>
    obtain rfl := Option.isNone_iff_eq_none.1 h
    cases type <;> simp [Suits, Datum.isNull]

/-- Null is stored under every type. -/
theorem store_null (type : FieldType) (name : String) :
    type.store name .null = .ok type.storageClass.null := by
  cases type <;> rfl

variable {name : String} {d : Datum} {value : Value}

theorem exists_store_loadNumber (hnull : ¬d.isNull = true) :
    (∃ param, number.store name (loadNumber d) = .ok param) ↔ number.Suits d := by
  cases d with
  | boolean v | int32 v | int64 v | uint32 v | uint64 v | float v | double v | text v | binary v =>
    cases v with
    | none => exact absurd rfl hnull
    | some _ => simp [loadNumber, Datum.passThrough, store, Suits]

theorem exists_store_passThrough (hnull : ¬d.isNull = true) :
    (∃ param, string.store name d.passThrough = .ok param) ↔ string.Suits d := by
  cases d with
  | boolean v | int32 v | int64 v | uint32 v | uint64 v | float v | double v | text v | binary v =>
    cases v with
    | none => exact absurd rfl hnull
    | some _ => simp [Datum.passThrough, store, Suits, Datum.isNull]

/-- A truth value that was loaded is one. -/
theorem exists_of_loadBoolean (h : loadBoolean name d = .ok value) : ∃ b, value = .boolean b := by
  unfold loadBoolean at h
  split at h
  · exact ⟨_, (Except.ok.inj h).symm⟩
  · exact ⟨_, (Except.ok.inj h).symm⟩
  · exact ⟨_, (Except.ok.inj h).symm⟩
  · cases h

/-- A point in time that was loaded is one. -/
theorem exists_of_loadDate (h : loadDate name d = .ok value) : ∃ t, value = .date t := by
  unfold loadDate at h
  split at h
  · cases h
  · split at h
    · exact ⟨_, (Except.ok.inj h).symm⟩
    · cases h

/-- A reference that was loaded is a record with its identifier. -/
theorem exists_of_loadReference (h : loadReference name d = .ok value) :
    ∃ id, value = .record (Record.withId id) := by
  unfold loadReference at h
  split at h
  · exact ⟨_, (Except.ok.inj h).symm⟩
  · cases h

/-- A document that was loaded is the one in the text. -/
theorem exists_of_loadDocument (h : loadDocument name d = .ok value) :
    ∃ text json, d = .text (some text) ∧ Json.parse text = some json ∧
      Value.ofJson json = value := by
  unfold loadDocument at h
  split at h
  · next text =>
    split at h
    · next json hparse => exact ⟨text, json, rfl, hparse, Except.ok.inj h⟩
    · cases h
  · cases h

/-- Under the two document types, the value of a document is stored if it is one of the kind of the
type, or null. -/
theorem exists_store_ofJson (json : Json) :
    ((∃ param, object.store name (.ofJson json) = .ok param) ↔
      json = .null ∨ ∃ members, json = .object members) ∧
    ((∃ param, array.store name (.ofJson json) = .ok param) ↔
      json = .null ∨ ∃ items, json = .array items) := by
  cases json with
  | number n => cases hn : n.toInt64? <;> simp [Value.ofJson, hn, store]
  | null | bool _ | string _ | array _ | object _ => simp [Value.ofJson, store]

/-- What was loaded from a physical value is stored again exactly if the physical value suits the
type. -/
theorem exists_store_iff_suits {type : FieldType} {loaded : Option Value}
    (h : type.load name d = .ok loaded) :
    (∀ value ∈ loaded, ∃ param, type.store name value = .ok param) ↔ type.Suits d := by
  unfold load at h
  split at h
  · next hnull =>
    refine iff_of_true ?_ (suits_of_isNull hnull type)
    intro value hvalue
    obtain rfl := Except.ok.inj h
    cases type with
    | object | array =>
      cases hvalue
      exact ⟨_, rfl⟩
    | number | string | boolean | date | reference => cases hvalue
  · next hnull =>
    obtain ⟨value, hvalue, rfl⟩ := map_eq_ok.1 h
    have hsome : (∀ v ∈ some value, ∃ param, type.store name v = .ok param) ↔
        ∃ param, type.store name value = .ok param := by simp
    rw [hsome]
    cases type with
    | number =>
      cases hvalue
      exact exists_store_loadNumber hnull
    | string =>
      cases hvalue
      exact exists_store_passThrough hnull
    | boolean =>
      obtain ⟨b, rfl⟩ := exists_of_loadBoolean hvalue
      exact iff_of_true ⟨_, rfl⟩ trivial
    | date =>
      obtain ⟨t, rfl⟩ := exists_of_loadDate hvalue
      exact iff_of_true ⟨_, rfl⟩ trivial
    | object =>
      obtain ⟨text, json, rfl, hparse, rfl⟩ := exists_of_loadDocument hvalue
      rw [(exists_store_ofJson json).1]
      simp [Suits, hparse]
    | array =>
      obtain ⟨text, json, rfl, hparse, rfl⟩ := exists_of_loadDocument hvalue
      rw [(exists_store_ofJson json).2]
      simp [Suits, hparse]
    | reference =>
      obtain ⟨id, rfl⟩ := exists_of_loadReference hvalue
      exact iff_of_true ⟨_, rfl⟩ trivial

end FieldType

/-- The two errors that report a physical value which a field cannot load. -/
def Error.Reports (e : Error) (name : String) (d : Datum) : Prop :=
  e = .decode name ∨ ∃ expected, e = .invalidValue name expected (.datum d)

/-- What is not loaded is reported. -/
theorem FieldType.reports_of_load {name : String} {type : FieldType} {d : Datum} {e : Error}
    (h : type.load name d = .error e) : e.Reports name d := by
  unfold load at h
  split at h
  · cases h
  have hvalue : type.loadValue name d = .error e := map_eq_error.1 h
  have hinvalid : ∀ expected, Except.error (.invalidValue name expected (.datum d))
      = (.error e : Except Error Value) → e.Reports name d := by
    intro expected he
    exact .inr ⟨expected, (Except.error.inj he).symm⟩
  cases type with
  | number | string => cases hvalue
  | boolean =>
    have hvalue : loadBoolean name d = .error e := hvalue
    unfold loadBoolean at hvalue
    split at hvalue
    · cases hvalue
    · cases hvalue
    · cases hvalue
    · exact hinvalid _ hvalue
  | date =>
    have hvalue : loadDate name d = .error e := hvalue
    unfold loadDate at hvalue
    split at hvalue
    · exact hinvalid _ hvalue
    · split at hvalue
      · cases hvalue
      · exact hinvalid _ hvalue
  | object | array =>
    have hvalue : loadDocument name d = .error e := hvalue
    unfold loadDocument at hvalue
    split at hvalue
    · split at hvalue
      · cases hvalue
      · exact .inl (Except.error.inj hvalue).symm
    · exact hinvalid _ hvalue
  | reference =>
    have hvalue : loadReference name d = .error e := hvalue
    unfold loadReference at hvalue
    split at hvalue
    · cases hvalue
    · exact hinvalid _ hvalue

/-! ## Records -/

/-- The physical value that a field of a row without objects is read from. -/
def Row.physical (row : Row) (fields : FieldSet) (field : FieldSpec) : Option Datum :=
  row.drawn (takenBefore [] fields.specs field) field.column

/-- What a field is read as, by its physical value. -/
theorem drawnValue_physical (row : Row) (fields : FieldSet) (field : FieldSpec) :
    drawnValue [] fields.specs row field
      = ((row.physical fields field).map field.load).getD (.ok none) := by
  have hdrawn : drawnValue [] fields.specs row field
      = rowValue [] field (row.physical fields field)
          (row.drawn (takenBefore [] fields.specs field ++ [field.column]) field.name) := rfl
  rw [hdrawn]
  cases row.physical fields field <;> rfl

/-- No optional field named like the identifier is left without a value, where the identifier would
stand in its place. -/
def Row.Identified (row : Row) (fields : FieldSet) : Prop :=
  ∀ f ∈ fields.specs, f.name = idName → f.required = true ∨
    drawnValue [] fields.specs row f ≠ .ok none

/-- What a field has read is under its name. -/
theorem get?_of_decode {fields : FieldSet} {row : Row} {record : Record}
    (h : decode fields [] row = .ok record) (hid : row.Identified fields) {f : FieldSpec}
    (hf : f ∈ fields.specs) :
    ∃ loaded, drawnValue [] fields.specs row f = .ok loaded ∧
      record.get? f.name = f.completed loaded := by
  rw [decode_eq_gather_drawn, gather_eq_ok (List.Nodup.of_map FieldSpec.name fields.nodup)] at h
  obtain ⟨values, hvalues, rfl⟩ := h
  refine ⟨values f, hvalues f hf, ?_⟩
  rw [get?_assignAll fields.nodup hf, get?_assign, if_pos rfl, FieldSpec.completed]
  -- what stood there before shows only for an optional field without a value
  by_cases hrequired : f.required = true
  · rw [if_pos hrequired, if_pos hrequired]
  · rw [if_neg hrequired, if_neg hrequired]
    cases hloaded : values f with
    | some v => rfl
    | none =>
      have hname : idName ≠ f.name := by
        intro hname
        rcases hid f hf hname.symm with hrequired' | hvalue
        · exact hrequired hrequired'
        · exact hvalue (hloaded ▸ hvalues f hf)
      unfold assignId
      split
      · rw [Named.get?_insert, if_neg hname]
        rfl
      · rfl

/-- A field stores again what it has read exactly if its physical value suits. -/
theorem exists_store_completed_iff {fields : FieldSet} {row : Row} {f : FieldSpec}
    {loaded : Option Value} (h : drawnValue [] fields.specs row f = .ok loaded) :
    (∀ value ∈ f.completed loaded, ∃ param, f.store value = .ok param) ↔
      ∀ d ∈ row.physical fields f, f.type.Suits d := by
  -- the null in place of a missing value is always stored
  have hnull : (∀ value ∈ f.completed loaded, ∃ param, f.store value = .ok param) ↔
      ∀ value ∈ loaded, ∃ param, f.store value = .ok param := by
    unfold FieldSpec.completed
    cases loaded with
    | some value => rfl
    | none =>
      refine iff_of_true ?_ (by simp)
      intro value hvalue
      by_cases hrequired : f.required = true
      · rw [Option.none_or, if_pos hrequired] at hvalue
        cases hvalue
        exact ⟨_, f.type.store_null f.name⟩
      · rw [Option.none_or, if_neg hrequired] at hvalue
        cases hvalue
  rw [hnull]
  rw [drawnValue_physical] at h
  cases hphysical : row.physical fields f with
  | none =>
    rw [hphysical] at h
    cases h
    simp
  | some d =>
    rw [hphysical] at h
    have hsome : (∀ d' ∈ some d, f.type.Suits d') ↔ f.type.Suits d := by simp
    rw [hsome]
    exact FieldType.exists_store_iff_suits h

/-- What is known of a field and a physical value: if the value is loaded, it is stored again
exactly if it suits the type, and otherwise it is reported. -/
structure FieldSpec.SoundAt (field : FieldSpec) (d : Datum) : Prop where
  writable : ∀ loaded, field.load d = .ok loaded →
    ((∀ value ∈ loaded, ∃ param, field.store value = .ok param) ↔ field.type.Suits d)
  reported : ∀ e, field.load d = .error e → e.Reports field.name d

/-- What is known of fields and a row: if the row is decoded, the record is encoded again exactly if
all physical values suit, and otherwise one of them is reported. -/
structure FieldSet.SoundAt (fields : FieldSet) (row : Row) : Prop where
  writable : ∀ record, decode fields [] row = .ok record → row.Identified fields →
    ((∃ values, encode fields record = .ok values) ↔
      ∀ f ∈ fields.specs, ∀ d ∈ row.physical fields f, f.type.Suits d)
  reported : ∀ e, decode fields [] row = .error e →
    ∃ f ∈ fields.specs, ∃ d ∈ row.physical fields f, e.Reports f.name d

/-- Decoding gives what can be encoded again, as far as the physical values suit the types of the
fields, and reports what it does not give. -/
theorem decode_sound (fields : FieldSet) (row : Row) :
    (∀ (field : FieldSpec) (d : Datum), field.SoundAt d) ∧ fields.SoundAt row := by
  refine ⟨fun field d => ⟨?_, ?_⟩, ⟨?_, ?_⟩⟩
  · intro loaded hload
    exact FieldType.exists_store_iff_suits hload
  · intro e hload
    exact FieldType.reports_of_load hload
  · intro record hdecode hid
    rw [exists_encode_iff]
    refine forall₂_congr fun f hf => ?_
    obtain ⟨loaded, hloaded, hget⟩ := get?_of_decode hdecode hid hf
    rw [hget]
    exact exists_store_completed_iff hloaded
  · intro e hdecode
    rw [decode_eq_gather_drawn] at hdecode
    obtain ⟨f, hf, hvalue⟩ := gather_eq_error hdecode
    rw [show Embedded.readers [] = [] from rfl, drawnValue_physical] at hvalue
    cases hphysical : row.physical fields f with
    | none =>
      rw [hphysical] at hvalue
      cases hvalue
    | some d =>
      rw [hphysical] at hvalue
      exact ⟨f, hf, d, hphysical, FieldType.reports_of_load hvalue⟩

/-- The fields of members. -/
def memberFields : FieldSet :=
  ⟨[{ name := "age", type := .number }, { name := "name", type := .string, required := false },
    { name := "active", type := .boolean }, { name := "places", type := .array }], by decide⟩

/-- A member in the store, of an age that is kept as an integer and without places. -/
def memberRow : Row :=
  ⟨"0", [(idName, .int64 (some 1)), ("age", .int64 (some 42)), ("name", .text (some "Ann")),
    ("active::boolean", .int64 (some 1)), ("places::array", .text none)]⟩

theorem decode_sound_member : ∃ record values,
    decode memberFields [] memberRow = .ok record ∧ encode memberFields record = .ok values := by
  have hdecode : decode memberFields [] memberRow
      = .ok [(idName, .integer 1), ("age", .number (.ofInt 42)), ("name", .text "Ann"),
          ("active", .boolean true), ("places", .array [])] := rfl
  have hid : memberRow.Identified memberFields := by
    intro f hf hname
    exact absurd (hname ▸ List.mem_map_of_mem hf) (by decide : idName ∉ memberFields.names)
  have hsuits : ∀ f ∈ memberFields.specs, ∀ d ∈ memberRow.physical memberFields f,
      f.type.Suits d := by
    intro f hf d hd
    simp only [memberFields, List.mem_cons, List.not_mem_nil, or_false] at hf
    rcases hf with rfl | rfl | rfl | rfl <;> cases hd <;> trivial
  obtain ⟨values, hvalues⟩ :=
    ((decode_sound memberFields memberRow).2.writable _ hdecode hid).2 hsuits
  exact ⟨_, values, hdecode, hvalues⟩

/-- Rows that are decoded as records that are not encoded again: a text in the column of a number,
an integer in that of a text, an array in that of an object, and no truth value beside the
identifier of the same name. -/
theorem decode_unsound_passThrough :
    let refused (field : FieldSpec) (value : Value) : Except Error (Named Param) :=
      .error (.invalidValue field.name (.fieldType field.type) (.value value))
    let row (column : String) (d : Datum) : Row := ⟨"0", [(idName, .int64 (some 1)), (column, d)]⟩
    let age : FieldSpec := { name := "age", type := .number }
    let note : FieldSpec := { name := "note", type := .string }
    let place : FieldSpec := { name := "place", type := .object }
    let active : FieldSpec := { name := idName, type := .boolean, required := false }
    (decode ⟨[age], by simp⟩ [] (row "age" (.text (some "old")))
        = .ok [(idName, .integer 1), ("age", .text "old")] ∧
      encode ⟨[age], by simp⟩ [(idName, .integer 1), ("age", .text "old")]
        = refused age (.text "old")) ∧
    (decode ⟨[note], by simp⟩ [] (row "note" (.int64 (some 5)))
        = .ok [(idName, .integer 1), ("note", .integer 5)] ∧
      encode ⟨[note], by simp⟩ [(idName, .integer 1), ("note", .integer 5)]
        = refused note (.integer 5)) ∧
    (decode ⟨[place], by simp⟩ [] (row "place::object" (.text (some "[]")))
        = .ok [(idName, .integer 1), ("place", .array [])] ∧
      encode ⟨[place], by simp⟩ [(idName, .integer 1), ("place", .array [])]
        = refused place (.array [])) ∧
    (decode ⟨[active], by simp⟩ [] (row "id::boolean" (.int64 none))
        = .ok [(idName, .integer 1)] ∧
      encode ⟨[active], by simp⟩ [(idName, .integer 1)] = refused active (.integer 1)) := by
  refine ⟨⟨rfl, rfl⟩, ⟨rfl, rfl⟩, ⟨rfl, rfl⟩, ⟨rfl, rfl⟩⟩

end RecordMapping
