import RecordMapping.Proofs.Field.RoundTrip
import RecordMapping.Proofs.Record.Writing

/-!
# Records read back from the store

A record that is encoded, kept by the engine and decoded comes back with its identifier and, field
by field, with what the types restore of its values (`Record.restored`). This holds exactly if the
numbers of its documents are read back from their texts (`decode_eq_restored_iff`).
-/

namespace RecordMapping

/-- A thing with a new name is put at the end. -/
theorem Named.insert_of_notMem {α : Type} {l : Named α} {name : String} (h : name ∉ l.names)
    (a : α) : insert name a l = l ++ [(name, a)] := by
  induction l with
  | nil => rfl
  | cons p rest ih =>
    obtain ⟨n, b⟩ := p
    rw [names_cons, List.mem_cons, not_or] at h
    rw [insert, if_neg fun hn => h.1 hn.symm, ih h.2, List.cons_append]

/-! ## Gathered values -/

/-- What a record has for a field that was read: a required field without a value is null. -/
def FieldSpec.completed (field : FieldSpec) (value : Option Value) : Option Value :=
  value.or (if field.required then some .null else none)

/-- A field with a new name is added at the end. -/
theorem assign_of_notMem {field : FieldSpec} {record : Record} (h : field.name ∉ Named.names record)
    (value : Option Value) :
    assign field value record = record ++ ((field.completed value).map (field.name, ·)).toList := by
  unfold assign FieldSpec.completed
  cases value with
  | some v => exact Named.insert_of_notMem h v
  | none =>
    by_cases hrequired : field.required = true
    · rw [if_pos hrequired, if_pos hrequired]
      exact Named.insert_of_notMem h .null
    · rw [if_neg hrequired, if_neg hrequired]
      exact (List.append_nil record).symm

/-- Fields with new names are added one after the other. -/
theorem assignAll_eq_append {values : FieldSpec → Option Value} {fields : List FieldSpec}
    {start : Record} (h : (Named.names start ++ specNames fields).Nodup) :
    assignAll values fields start
      = start ++ fields.filterMap fun f => (f.completed (values f)).map (f.name, ·) := by
  induction fields generalizing start with
  | nil => exact (List.append_nil start).symm
  | cons field rest ih =>
    rw [specNames_cons] at h
    have hfield : field.name ∉ Named.names start := by
      intro hmem
      exact (List.nodup_append.1 h).2.2 _ hmem _ List.mem_cons_self rfl
    rw [assignAll, assign_of_notMem hfield, ih, List.append_assoc]
    · congr 1
      cases hv : field.completed (values field) <;> simp [hv]
    · -- the names so far are those of the start, and that of the field if it has a value
      refine h.sublist ?_
      rw [Named.names, List.map_append, List.append_assoc]
      refine List.Sublist.append_left ?_ _
      cases field.completed (values field) <;> simp

/-! ## Rows -/

/-- A row with an identifier and, in any order, what the engine gives back of the columns of a
stored record. The fields that were not stored have no column in it. -/
structure Row.Holds (row : Row) (fields : FieldSet) (id : Int64) (values : Named Param) : Prop where
  id : row.get? idName = some (.int64 (some id))
  columns : ∀ f ∈ fields.specs, row.get? f.column = (values.get? f.column).bind Param.returned

/-- A record as it comes back from the store: the identifier, and then the fields in order, with
what their types restore of the values. -/
def Record.restored (fields : FieldSet) (id : Int64) (record : Record) : Record :=
  (idName, .integer id) :: fields.specs.filterMap fun f =>
    (f.completed ((record.get? f.name).bind f.type.restored)).map (f.name, ·)

/-- What is read for a field of a stored record, if its documents are read from their texts. -/
def storedValue (record : Record) (field : FieldSpec) : Except Error (Option Value) :=
  match record.get? field.name with
  | some value => field.type.reloaded field.name value
  | none => .ok none

theorem columnValue_eq_storedValue {record : Record} {values : Named Param} {field : FieldSpec}
    (hstored : field.StoredIn record values) {row : Row}
    (hcolumn : row.get? field.column = (values.get? field.column).bind Param.returned)
    (hleap : ∀ value ∈ record.get? field.name, ∀ t, value = .date t → t.nanos < 1000000000) :
    columnValue row field = storedValue record field := by
  unfold FieldSpec.StoredIn at hstored
  unfold columnValue storedValue
  rw [hcolumn]
  cases hvalue : record.get? field.name with
  | none =>
    rw [hvalue] at hstored
    rw [hstored]
    rfl
  | some value =>
    rw [hvalue] at hstored
    obtain ⟨param, hstore, hparam⟩ := hstored
    obtain ⟨d, hd, hload⟩ := FieldType.load_of_store hstore (hleap value hvalue)
    rw [hparam, Option.bind_some, hd]
    exact hload

/-- What is read for a field is what its type restores if and only if the numbers of its documents
are read back. -/
theorem storedValue_eq_restored_iff {record : Record} {values : Named Param} {field : FieldSpec}
    (hstored : field.StoredIn record values)
    (hvalue : ∀ value ∈ record.get? field.name, value.Storable) :
    storedValue record field = .ok ((record.get? field.name).bind field.type.restored) ↔
      ∀ value ∈ record.get? field.name, value.Rereadable := by
  unfold FieldSpec.StoredIn at hstored
  unfold storedValue
  cases hget : record.get? field.name with
  | none => simp
  | some value =>
    rw [hget] at hstored
    obtain ⟨param, hstore, -⟩ := hstored
    have hiff := FieldType.reloaded_eq_restored_iff hstore (hvalue value hget)
    rw [Option.bind_some, hiff]
    simp

/-- A field of which a record has the restored value was read as this value. -/
theorem storedValue_eq_of_completed_eq {record : Record} {values : Named Param} {field : FieldSpec}
    (hstored : field.StoredIn record values) {loaded : Option Value}
    (hloaded : storedValue record field = .ok loaded)
    (heq : field.completed loaded
      = field.completed ((record.get? field.name).bind field.type.restored)) :
    loaded = (record.get? field.name).bind field.type.restored := by
  unfold FieldSpec.StoredIn at hstored
  unfold storedValue at hloaded
  cases hget : record.get? field.name with
  | none =>
    rw [hget] at hloaded
    exact (Except.ok.inj hloaded).symm
  | some value =>
    rw [hget] at hstored hloaded heq
    obtain ⟨param, hstore, -⟩ := hstored
    exact FieldType.eq_restored_of_or_eq hstore hloaded heq

/-- In a record that was gathered with new names, each field has its completed value. -/
theorem get?_assignAll_of_notMem_start {values : FieldSpec → Option Value} {fields : List FieldSpec}
    (hnodup : (specNames fields).Nodup) {field : FieldSpec} (hfield : field ∈ fields)
    {start : Record} (hstart : field.name ∉ Named.names start) :
    (assignAll values fields start).get? field.name = field.completed (values field) := by
  rw [get?_assignAll hnodup hfield, get?_assign, if_pos rfl, Named.get?_eq_none hstart]
  rfl

/-- A record that is encoded, kept by the engine and decoded is restored if and only if each number
of its documents that is not written as an integer is read back from its text. -/
theorem decode_eq_restored_iff {fields : FieldSet} (hcolumns : (idName :: fields.columns).Nodup)
    (hid : idName ∉ fields.names) {record : Record} {values : Named Param}
    (hencode : encode fields record = .ok values)
    (hstorable : ∀ f ∈ fields.specs, ∀ value ∈ record.get? f.name, value.Storable) {row : Row}
    {id : Int64} (hrow : row.Holds fields id values) :
    decode fields [] row = .ok (record.restored fields id) ↔
      ∀ f ∈ fields.specs, ∀ value ∈ record.get? f.name, value.Rereadable := by
  have hstored : ∀ f ∈ fields.specs, f.StoredIn record values :=
    stored_of_encodeSpecs (List.nodup_cons.1 hcolumns).2 hencode
  have hvalues : ∀ f ∈ fields.specs, columnValue row f = storedValue record f := by
    intro f hf
    refine columnValue_eq_storedValue (hstored f hf) (hrow.columns f hf) ?_
    intro value hvalue
    exact (hstorable f hf value hvalue).noLeap
  have hnew : ∀ f ∈ fields.specs, f.name ∉ Named.names [(idName, Value.integer id)] := by
    intro f hf hmem
    have hname : f.name = idName := List.mem_singleton.1 hmem
    exact hid (hname ▸ List.mem_map_of_mem hf)
  have hnames : (Named.names [(idName, Value.integer id)] ++ specNames fields.specs).Nodup :=
    List.nodup_cons.2 ⟨hid, fields.nodup⟩
  have hrestored : record.restored fields id
      = assignAll (fun f => (record.get? f.name).bind f.type.restored) fields.specs
          [(idName, .integer id)] :=
    (assignAll_eq_append hnames).symm
  have hdecode : decode fields [] row
      = gather (columnValue row) fields.specs [(idName, .integer id)] := by
    rw [decode_eq_gather fields row hcolumns, hrow.id]
    rfl
  rw [hdecode, hrestored, gather_eq_ok (List.Nodup.of_map FieldSpec.name fields.nodup)]
  constructor
  · -- two gathered records are equal only if they have the same under the name of each field
    rintro ⟨loaded, hloaded, hrecord⟩ f hf
    have hfield := congrArg (Named.get? · f.name) hrecord
    simp only [get?_assignAll_of_notMem_start fields.nodup hf (hnew f hf)] at hfield
    have hvalue := hloaded f hf
    rw [hvalues f hf] at hvalue
    rw [← storedValue_eq_restored_iff (hstored f hf) (hstorable f hf), hvalue,
      storedValue_eq_of_completed_eq (hstored f hf) hvalue hfield]
  · intro h
    refine ⟨_, ?_, rfl⟩
    intro f hf
    rw [hvalues f hf]
    exact (storedValue_eq_restored_iff (hstored f hf) (hstorable f hf)).2 (h f hf)

/-- The fields of measurements. -/
def measurementFields : FieldSet :=
  ⟨[{ name := "taken", type := .date }, { name := "values", type := .array },
    { name := "count", type := .number }, { name := "sensor", type := .reference },
    { name := "note", type := .string, required := false }, { name := "place", type := .object }],
    by decide⟩

/-- A measurement before 1970, with the given value and some others. -/
def measurement (x : JsonNumber) : Record :=
  [("values", .array [.number x, .null]), ("count", .integer 2), ("note", .null), ("place", .null),
    ("sensor", .integer 7), ("taken", .date ⟨-2, 1500000, by decide, by decide⟩)]

/-- The parameters that store such a measurement, the values as the given text. -/
def measurementParams (text : String) : Named Param :=
  [("taken::date", .bigInt (some (-1999))), ("values::array", .string (some text)),
    ("count", .double (some (.ofInt 2))), ("sensor::reference", .bigInt (some 7)),
    ("note", .string none), ("place::object", .string none)]

/-- The row that comes back. -/
def measurementRow (text : String) : Row :=
  ⟨"0", [("place::object", .text none), ("note", .text none), ("values::array", .text (some text)),
    (idName, .int64 (some 1)), ("sensor::reference", .int64 (some 7)),
    ("taken::date", .int64 (some (-1999))), ("count", .double (some (.ofInt 2)))]⟩

theorem storable_measurement (x : JsonNumber) :
    ∀ f ∈ measurementFields.specs, ∀ value ∈ (measurement x).get? f.name, value.Storable := by
  intro f hf value hvalue
  simp only [measurementFields, List.mem_cons, List.not_mem_nil, or_false] at hf
  rcases hf with rfl | rfl | rfl | rfl | rfl | rfl <;> obtain rfl := Option.some.inj hvalue
  · -- the point in time
    constructor
    · intro t ht
      rw [← Value.date.inj ht]
      decide
    · simp [Value.document?]
    · simp [Value.document?]
  · -- the values
    have hopen : 1 ≤ Json.mostOpen := by decide
    have hnumber : (Json.number x).Fits 1 := ⟨trivial, hopen⟩
    have hnull : Json.null.Fits 1 := ⟨trivial, hopen⟩
    have hitem : ∀ item ∈ [Json.number x, .null], item.Fits 1 := by
      simp [hnumber, hnull]
    have hfits : (Json.array [.number x, .null]).Fits 0 := Json.fits_array_iff.2 ⟨by decide, hitem⟩
    exact Value.storable_ofJson hfits
  all_goals exact .of_plain (by simp) rfl

/-- One half. -/
def JsonNumber.half : JsonNumber := .real ⟨0x3fe0000000000000⟩ (by decide)

theorem holds_measurementRow (text : String) :
    (measurementRow text).Holds measurementFields 1 (measurementParams text) := by
  refine ⟨rfl, ?_⟩
  intro f hf
  simp only [measurementFields, List.mem_cons, List.not_mem_nil, or_false] at hf
  rcases hf with rfl | rfl | rfl | rfl | rfl | rfl
  case inr.inl => exact (Param.returned_string text).symm
  all_goals rfl

theorem encode_measurement (x : JsonNumber) :
    encode measurementFields (measurement x)
      = .ok (measurementParams (Json.array [.number x, .null]).text) := by
  rfl

theorem rereadable_measurement {x : JsonNumber}
    (hx : Json.readNumber (Json.numberText x).toList = some x) :
    ∀ f ∈ measurementFields.specs, ∀ value ∈ (measurement x).get? f.name, value.Rereadable := by
  intro f hf value hvalue
  simp only [measurementFields, List.mem_cons, List.not_mem_nil, or_false] at hf
  rcases hf with rfl | rfl | rfl | rfl | rfl | rfl <;> obtain rfl := Option.some.inj hvalue
  case inr.inl =>
    rintro _ ⟨⟩ y finite hy
    simp [Json.tokens, Json.itemTokens] at hy
    rwa [hy]
  all_goals simp [Value.Rereadable, Value.document?]

theorem decode_eq_restored_iff_half :
    decode measurementFields [] (measurementRow "[0.5,null]")
      = .ok [(idName, .integer 1),
          ("taken", .date ⟨-2, 1000000, by decide, by decide⟩),
          ("values", .array [.number .half, .null]), ("count", .number (.ofInt 2)),
          ("sensor", .record [(idName, .integer 7)]), ("place", .object [])] := by
  have hencode : encode measurementFields (measurement .half)
      = .ok (measurementParams "[0.5,null]") := by
    have htext : (Json.array [.number .half, .null]).text = "[0.5,null]" := by decide +kernel
    rw [encode_measurement, htext]
  refine (decode_eq_restored_iff (by decide) (by decide) hencode (storable_measurement .half)
    (holds_measurementRow _)).2 (rereadable_measurement ?_)
  decide +kernel

/-- A number that scaling reads as its neighbour. -/
def JsonNumber.lostDigit : JsonNumber := .real ⟨0x39b4484bfeebc29f⟩ (by decide)

/-- The text of the values of a measurement that was read. -/
def valuesText (read : Except Error Record) : Option String :=
  read.toOption.bind fun record => (record.get? "values").map fun value => value.toJson.text

/-- A record that is not restored: a number in its document is read back as the neighbour. -/
theorem decode_ne_restored_lostDigit :
    let record := measurement .lostDigit
    let params := measurementParams "[9.999999999999999e-31,null]"
    let row := measurementRow "[9.999999999999999e-31,null]"
    encode measurementFields record = .ok params ∧
      (∀ f ∈ measurementFields.specs, ∀ value ∈ record.get? f.name, value.Storable) ∧
      row.Holds measurementFields 1 params ∧
      valuesText (decode measurementFields [] row) = some "[1e-30,null]" ∧
      decode measurementFields [] row ≠ .ok (record.restored measurementFields 1) := by
  intro record params row
  have htext : (Json.array [.number .lostDigit, .null]).text = "[9.999999999999999e-31,null]" := by
    decide +kernel
  have hread : valuesText (decode measurementFields [] row) = some "[1e-30,null]" := by
    decide +kernel
  have hrestored : valuesText (.ok (record.restored measurementFields 1))
      = some "[9.999999999999999e-31,null]" := congrArg some htext
  refine ⟨?_, storable_measurement .lostDigit, holds_measurementRow _, hread, ?_⟩
  · show encode measurementFields (measurement .lostDigit) = _
    rw [encode_measurement, htext]
  · intro h
    rw [h, hrestored] at hread
    exact absurd hread (by decide)

end RecordMapping
