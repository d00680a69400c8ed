import RecordMapping.Proofs.Json.Readable
import RecordMapping.Proofs.Record.RoundTrip
import RecordMapping.Proofs.Sql.Statement

/-!
# What can be read of what was written

Storing and loading have limits of their own. Everything that a field stores is loaded again, except
for a leap second at the very end of the range of points in time, and for documents that are nested
too deeply for the reader (`Value.Readable`). One such value in a record is enough, and its row is
not decoded any more (`decode_ok_iff_readable`).
-/

namespace RecordMapping

/-! ## Points in time -/

/-- The milliseconds of an instant are those of an instant again, unless it is a leap second after
the last second of the range. -/
theorem Instant.isSome_ofMillis?_millis (t : Instant) :
    (ofMillis? t.millis).isSome = true ↔ t.seconds < greatestSecond ∨ t.nanos < 1000000000 := by
  have hrange := t.inRange
  have hnanos := t.nanos_lt
  have hmillis : t.millis = t.seconds * 1000 + t.nanos / 1000000 := rfl
  unfold ofMillis? of?
  split
  · next h =>
    refine iff_of_true rfl ?_
    have hlast := h.1.2
    omega
  · next h =>
    refine iff_of_false Bool.false_ne_true fun hreadable => h ⟨⟨?_, ?_⟩, ?_⟩ <;> omega

/-! ## Values -/

namespace Value

/-- Values that are loaded again once they are stored: points in time whose milliseconds stay in
range, and documents of fewer than 128 levels. -/
structure Readable (value : Value) : Prop where
  inRange : ∀ t, value = .date t → t.seconds < greatestSecond ∨ t.nanos < 1000000000
  shallow : ∀ json ∈ value.document?, json.depth < 128

end Value

namespace FieldType

/-- Only nulls, integers, numbers and texts are stored. -/
theorem param_of_store {name : String} {type : FieldType} {value : Value} {param : Param}
    (h : type.store name value = .ok param) :
    param = type.storageClass.null ∨ (∃ i, param = .bigInt (some i)) ∨
      (∃ x, param = .double (some x)) ∨ ∃ s, param = .string (some s) := by
  unfold store at h
  split at h
  · -- null
    exact .inl (Except.ok.inj h).symm
  · -- an integer under a number type
    exact .inr (.inr (.inl ⟨_, (Except.ok.inj h).symm⟩))
  · -- a number
    exact .inr (.inr (.inl ⟨_, (Except.ok.inj h).symm⟩))
  · -- a text
    exact .inr (.inr (.inr ⟨_, (Except.ok.inj h).symm⟩))
  · -- a truth value
    exact .inr (.inl ⟨_, (Except.ok.inj h).symm⟩)
  · -- a point in time
    exact .inr (.inl ⟨_, (Except.ok.inj h).symm⟩)
  · -- an object
    exact .inr (.inr (.inr ⟨_, (Except.ok.inj h).symm⟩))
  · -- an array
    exact .inr (.inr (.inr ⟨_, (Except.ok.inj h).symm⟩))
  · -- a reference
    split at h
    · exact .inr (.inl ⟨_, (Except.ok.inj h).symm⟩)
    · cases h
  · -- no other value is stored
    cases h

/-- What is loaded is the same, whether a stored value has been in the engine or not. -/
theorem load_returned {name : String} {type : FieldType} {value : Value} {param : Param}
    (h : type.store name value = .ok param) :
    ∃ sent returned, param.datum = .ok sent ∧ param.returned = some returned ∧
      type.load name returned = type.load name sent := by
  rcases param_of_store h with rfl | ⟨i, rfl⟩ | ⟨x, rfl⟩ | ⟨s, rfl⟩
  · -- the nulls of the classes differ, but are all loaded as null
    have hsent : ∃ sent, type.storageClass.null.datum = .ok sent ∧ sent.isNull = true := by
      cases type.storageClass <;> exact ⟨_, rfl, rfl⟩
    obtain ⟨sent, hdatum, hnull⟩ := hsent
    refine ⟨sent, _, hdatum, Param.returned_null _, ?_⟩
    unfold load
    rw [hnull]
    rfl
  · exact ⟨_, _, rfl, Param.returned_bigInt i, rfl⟩
  · exact ⟨_, _, rfl, Param.returned_double x, rfl⟩
  · exact ⟨_, _, rfl, Param.returned_string s, rfl⟩

/-- A document is loaded from its text if it is not nested too deeply. -/
theorem exists_loadDocument_iff (name : String) (json : Json) :
    (∃ value, loadDocument name (.text (some json.text)) = .ok value) ↔ json.depth < 128 := by
  have hmost : json.depth < 128 ↔ json.depth ≤ Json.mostOpen := Nat.lt_succ_iff
  rw [hmost, ← Json.isSome_parse_text_iff, Option.isSome_iff_exists]
  simp only [loadDocument_eq_ok_iff]
  constructor
  · rintro ⟨_, read, hread, -⟩
    exact ⟨read, hread⟩
  · rintro ⟨read, hread⟩
    exact ⟨Value.ofJson read, read, hread, rfl⟩

/-- Apart from points in time, what is read for a stored value is an error only for a document that
is nested too deeply. -/
theorem exists_reloaded_iff (name : String) (type : FieldType) (value : Value) :
    (∃ loaded, type.reloaded name value = .ok loaded) ↔
      ∀ json ∈ value.document?, json.depth < 128 := by
  unfold reloaded
  cases hdocument : value.document? with
  | none =>
    refine iff_of_true ⟨_, rfl⟩ ?_
    intro json hjson
    cases hjson
  | some json =>
    have hdepth : (∀ json' ∈ some json, json'.depth < 128) ↔ json.depth < 128 := by simp
    rw [hdepth, ← exists_loadDocument_iff name json]
    constructor
    · rintro ⟨_, hloaded⟩
      obtain ⟨value, hvalue, -⟩ := map_eq_ok.1 hloaded
      exact ⟨value, hvalue⟩
    · rintro ⟨value, hvalue⟩
      exact ⟨some value, map_eq_ok.2 ⟨value, hvalue, rfl⟩⟩

/-- A text that holds no document is not loaded as an array. -/
theorem load_array_of_parse {name text : String} (h : Json.parse text = none) :
    array.load name (.text (some text)) = .error (.decode name) := by
  have hload : array.load name (.text (some text))
      = (loadDocument name (.text (some text))).map some := rfl
  rw [hload, loadDocument]
  simp only [h]
  rfl

/-- A point in time is only stored under its own type, and loaded from its milliseconds. -/
theorem load_of_store_date {name : String} {type : FieldType} {t : Instant} {param : Param}
    (h : type.store name (.date t) = .ok param) :
    ∃ d, param.returned = some d ∧
      ((∃ loaded, type.load name d = .ok loaded) ↔ (Instant.ofMillis? t.millis).isSome = true) := by
  cases type with
  | date =>
    cases h
    refine ⟨_, Param.returned_bigInt _, ?_⟩
    have hload : date.load name (.int64 (some (Int64.ofInt t.millis)))
        = (loadDate name (.int64 (some (Int64.ofInt t.millis)))).map some := rfl
    rw [hload]
    simp only [loadDate, Datum.integer?, t.toInt_millis]
    cases Instant.ofMillis? t.millis with
    | none =>
      refine iff_of_false ?_ Bool.false_ne_true
      rintro ⟨_, hloaded⟩
      cases hloaded
    | some t' => exact iff_of_true ⟨_, rfl⟩ rfl
  | number | string | boolean | object | array | reference => cases h

/-- What is stored for a value is loaded again exactly if the value is readable, with and without
the engine in between. -/
theorem exists_load_iff_readable {name : String} {type : FieldType} {value : Value} {param : Param}
    (h : type.store name value = .ok param) :
    ∃ sent returned, param.datum = .ok sent ∧ param.returned = some returned ∧
      ((∃ loaded, type.load name sent = .ok loaded) ↔ value.Readable) ∧
      ((∃ loaded, type.load name returned = .ok loaded) ↔ value.Readable) := by
  obtain ⟨sent, returned, hsent, hreturned, hload⟩ := load_returned h
  have hiff : (∃ loaded, type.load name returned = .ok loaded) ↔ value.Readable := by
    by_cases hdate : ∃ t, value = .date t
    · obtain ⟨t, rfl⟩ := hdate
      obtain ⟨d, hd, hiff⟩ := load_of_store_date h
      obtain rfl := Option.some.inj (hreturned.symm.trans hd)
      rw [hiff, t.isSome_ofMillis?_millis]
      constructor
      · intro hrange
        refine ⟨?_, by simp [Value.document?]⟩
        rintro _ ⟨⟩
        exact hrange
      · intro hreadable
        exact hreadable.inRange t rfl
    · obtain ⟨d, hd, hreloaded⟩ := load_of_store h fun t ht => absurd ⟨t, ht⟩ hdate
      obtain rfl := Option.some.inj (hreturned.symm.trans hd)
      rw [hreloaded, exists_reloaded_iff]
      constructor
      · intro hshallow
        exact ⟨fun t ht => absurd ⟨t, ht⟩ hdate, hshallow⟩
      · intro hreadable
        exact hreadable.shallow
  exact ⟨sent, returned, hsent, hreturned, hload ▸ hiff, hiff⟩

end FieldType

/-! ## Records -/

/-- Values are gathered if each of them is there. -/
theorem exists_gather_iff {value : FieldSpec → Except Error (Option Value)}
    {fields : List FieldSpec} {start : Record} :
    (∃ record, gather value fields start = .ok record) ↔ ∀ f ∈ fields, ∃ v, value f = .ok v := by
  induction fields generalizing start with
  | nil => exact iff_of_true ⟨start, rfl⟩ (by simp)
  | cons field rest ih =>
    rw [List.forall_mem_cons, gather]
    constructor
    · rintro ⟨record, h⟩
      obtain ⟨v, hv, hrest⟩ := bind_eq_ok.1 h
      exact ⟨⟨v, hv⟩, ih.1 ⟨record, hrest⟩⟩
    · rintro ⟨⟨v, hv⟩, hrest⟩
      obtain ⟨record, hrecord⟩ := ih.2 hrest
      exact ⟨record, bind_eq_ok.2 ⟨v, hv, hrecord⟩⟩

/-- A column of a stored record is read exactly if the value in it is readable. -/
theorem exists_columnValue_iff {record : Record} {values : Named Param} {field : FieldSpec}
    (hstored : field.StoredIn record values) {row : Row}
    (hcolumn : row.get? field.column = (values.get? field.column).bind Param.returned) :
    (∃ v, columnValue row field = .ok v) ↔ ∀ value ∈ record.get? field.name, value.Readable := by
  unfold FieldSpec.StoredIn at hstored
  unfold columnValue
  rw [hcolumn]
  cases hvalue : record.get? field.name with
  | none =>
    rw [hvalue] at hstored
    rw [hstored]
    exact iff_of_true ⟨none, rfl⟩ (by simp)
  | some value =>
    rw [hvalue] at hstored
    obtain ⟨param, hstore, hparam⟩ := hstored
    obtain ⟨-, returned, -, hreturned, -, hiff⟩ := FieldType.exists_load_iff_readable hstore
    rw [hparam, Option.bind_some, hreturned]
    have hvalue : (∀ v ∈ some value, v.Readable) ↔ value.Readable := by simp
    rw [hvalue]
    exact hiff

/-- What is accepted for writing is read again exactly if it is readable: each value by itself, and
a row if all values in it are. -/
theorem decode_ok_iff_readable {fields : FieldSet} {record : Record} {values : Named Param}
    (hencode : encode fields record = .ok values) :
    (∀ f ∈ fields.specs, ∀ value ∈ record.get? f.name, ∃ param d, f.store value = .ok param ∧
      param.datum = .ok d ∧ ((∃ loaded, f.load d = .ok loaded) ↔ value.Readable)) ∧
    ∀ (row : Row) (id : Int64), (idName :: fields.columns).Nodup → row.Holds fields id values →
      ((∃ read, decode fields [] row = .ok read) ↔
        ∀ f ∈ fields.specs, ∀ value ∈ record.get? f.name, value.Readable) := by
  constructor
  · intro f hf value hvalue
    obtain ⟨param, hstore⟩ := exists_encode_iff.1 ⟨values, hencode⟩ f hf value hvalue
    obtain ⟨sent, -, hsent, -, hiff, -⟩ := FieldType.exists_load_iff_readable hstore
    exact ⟨param, sent, hstore, hsent, hiff⟩
  · intro row id hcolumns hrow
    have hstored : ∀ f ∈ fields.specs, f.StoredIn record values :=
      stored_of_encodeSpecs (List.nodup_cons.1 hcolumns).2 hencode
    rw [decode_eq_gather fields row hcolumns, exists_gather_iff]
    refine forall₂_congr fun f hf => ?_
    exact exists_columnValue_iff (hstored f hf) (hrow.columns f hf)

/-- The fields of visits. -/
def visitFields : FieldSet := ⟨[{ name := "visited", type := .date }], by decide⟩

/-- A visit at a point in time. -/
def visit (t : Instant) : Record := [("visited", .date t)]

/-- The parameters that store such a visit. -/
def visitParams (t : Instant) : Named Param :=
  [("visited::date", .bigInt (some (Int64.ofInt t.millis)))]

/-- The row that comes back. -/
def visitRow (t : Instant) : Row :=
  ⟨"0", [(idName, .int64 (some 1)), ("visited::date", .int64 (some (Int64.ofInt t.millis)))]⟩

theorem encode_visit (t : Instant) : encode visitFields (visit t) = .ok (visitParams t) := rfl

theorem holds_visitRow (t : Instant) : (visitRow t).Holds visitFields 1 (visitParams t) := by
  refine ⟨rfl, ?_⟩
  intro f hf
  obtain rfl := List.mem_singleton.1 hf
  rfl

/-- The middle of the leap second at the end of 2016. -/
def Instant.leapSecond2016 : Instant :=
  ⟨1483228799, 1500000000, by decide, by decide⟩

theorem decode_ok_iff_readable_leapSecond2016 :
    ∃ read, decode visitFields [] (visitRow .leapSecond2016) = .ok read := by
  refine ((decode_ok_iff_readable (encode_visit .leapSecond2016)).2 _ 1 (by decide)
    (holds_visitRow _)).2 ?_
  intro f hf value hvalue
  obtain rfl := List.mem_singleton.1 hf
  obtain rfl := Option.some.inj hvalue
  refine ⟨?_, by simp [Value.document?]⟩
  rintro _ ⟨⟩
  exact .inl (by decide)

/-- The end of a leap second after the last second of the range. -/
def Instant.lastLeapSecond : Instant :=
  ⟨8210266876799, 1999999999, by decide, by decide⟩

/-- Arrays in arrays. -/
def Json.nested : Nat → Json
  | 0 => .array []
  | n + 1 => .array [nested n]

theorem Json.depth_nested (n : Nat) : (nested n).depth = n + 1 := by
  induction n with
  | zero => rfl
  | succ n ih => rw [nested, depth, depthItems, depthItems, ih, Nat.max_zero]

/-- Two values that are written, but not read: the end of the last leap second, whose row is not
decoded any more, and an array of 128 levels. -/
theorem decode_error_lastLeapSecond :
    let millis : Datum := .int64 (some 8210266876800999)
    let refused : Error := .invalidValue "visited" .millisecondsInRange (.datum millis)
    (FieldType.date.store "visited" (.date .lastLeapSecond)
        = .ok (.bigInt (some 8210266876800999)) ∧
      (Param.bigInt (some 8210266876800999)).datum = .ok millis ∧
      FieldType.date.load "visited" millis = .error refused) ∧
    (encode visitFields (visit .lastLeapSecond) = .ok (visitParams .lastLeapSecond) ∧
      (visitRow .lastLeapSecond).Holds visitFields 1 (visitParams .lastLeapSecond) ∧
      decode visitFields [] (visitRow .lastLeapSecond) = .error refused) ∧
    ∃ param d, FieldType.array.store "list" (.array [Json.nested 126]) = .ok param ∧
      param.datum = .ok d ∧ FieldType.array.load "list" d = .error (.decode "list") := by
  intro millis refused
  refine ⟨⟨rfl, rfl, rfl⟩, ⟨encode_visit _, holds_visitRow _, rfl⟩, _, _, rfl, rfl, ?_⟩
  have hdepth : (Json.array [Json.nested 126]).depth = 128 := Json.depth_nested 127
  apply FieldType.load_array_of_parse
  rw [← Option.not_isSome_iff_eq_none, Json.isSome_parse_text_iff, hdepth]
  decide

end RecordMapping
