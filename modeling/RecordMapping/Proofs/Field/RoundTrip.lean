import RecordMapping.Engine.Storage
import RecordMapping.Field.Storage
import RecordMapping.Proofs.Json.Invariant
import RecordMapping.Proofs.Results

/-!
# Values read back from the store

What is stored for a value under a field type, and kept by the engine, is read back as the value
that the type can hold (`FieldType.restored`). Only a document may come back as another one: its
text is read anew, and with it the numbers in it (`FieldType.load_of_store`). Every value that is
read can be stored again (`FieldType.storable_of_load`).
-/

namespace RecordMapping

/-! ## The engine -/

/-- What comes back from the engine for a parameter that it keeps. -/
def Param.returned (param : Param) : Option Datum :=
  param.datum.toOption.bind fun d => d.stored.datum.toOption

theorem Text.ofBytes?_toBytes (s : String) : Text.ofBytes? (Text.toBytes s) = some s :=
  dif_pos s.isValidUTF8

theorem Param.returned_bigInt (i : Int64) : returned (.bigInt (some i)) = some (.int64 (some i)) :=
  rfl

theorem Param.returned_double (x : Binary64) :
    returned (.double (some x)) = some (.double (some x)) := rfl

theorem Param.returned_string (s : String) :
    returned (.string (some s)) = some (.text (some s)) := by
  show (StoredValue.text (Text.toBytes s)).datum.toOption = _
  rw [StoredValue.datum, Text.ofBytes?_toBytes]
  rfl

/-- A null comes back as the null of text, whatever its column. -/
theorem Param.returned_null (c : StorageClass) : returned c.null = some (.text none) := by
  cases c <;> rfl

/-! ## Points in time -/

namespace Instant

/-- An instant without what is finer than a millisecond. -/
def wholeMillis (t : Instant) : Instant where
  seconds := t.seconds
  nanos := t.nanos / 1000000 * 1000000
  inRange := t.inRange
  nanos_lt := by
    have := t.nanos_lt
    omega

/-- Milliseconds stay far inside the signed range. -/
theorem millis_bounds (t : Instant) :
    -9223372036854775808 ≤ t.millis ∧ t.millis < 9223372036854775808 := by
  have hleast : leastSecond = -8334601228800 := by decide
  have hgreatest : greatestSecond = 8210266876799 := by decide
  have hrange := t.inRange
  have hnanos := t.nanos_lt
  rw [hleast, hgreatest] at hrange
  unfold millis
  omega

theorem toInt_millis (t : Instant) : (Int64.ofInt t.millis).toInt = t.millis := by
  obtain ⟨hlow, hhigh⟩ := t.millis_bounds
  exact Int64.toInt_ofInt_of_le hlow hhigh

/-- The milliseconds of an instant that is no leap second are read as this instant, without what
is finer. -/
theorem ofMillis?_millis (t : Instant) (hleap : t.nanos < 1000000000) :
    ofMillis? t.millis = some t.wholeMillis := by
  have hseconds : t.millis / 1000 = t.seconds := by
    unfold millis
    omega
  have hnanos : (t.millis % 1000).toNat * 1000000 = t.nanos / 1000000 * 1000000 := by
    unfold millis
    omega
  rw [ofMillis?, hseconds, hnanos]
  exact dif_pos ⟨t.inRange, t.wholeMillis.nanos_lt⟩

/-- Milliseconds are never read as a leap second. -/
theorem nanos_lt_of_ofMillis? {millis : Int} {t : Instant} (h : ofMillis? millis = some t) :
    t.nanos < 1000000000 := by
  unfold ofMillis? of? at h
  split at h
  · cases h
    show (millis % 1000).toNat * 1000000 < 1000000000
    omega
  · cases h

end Instant

/-! ## Values -/

namespace Value

/-- The document that an object or an array is. -/
def document? : Value → Option Json
  | .object members => some (.object members)
  | .array items => some (.array items)
  | _ => none

/-- The value of a document is an object or an array only if the document is this one. -/
theorem ofJson_eq_iff {value : Value} {json json' : Json} (h : value.document? = some json) :
    ofJson json' = value ↔ json' = json := by
  cases value with
  | object _ | array _ =>
    cases h
    cases json' with
    | number n => cases hn : n.toInt64? <;> simp [ofJson, hn]
    | null | bool _ | string _ | array _ | object _ => simp [ofJson]
  | null | integer _ | number _ | text _ | boolean _ | date _ | record _ => cases h

/-- Values that the store can hold: points in time that are no leap seconds, and documents with
the keys of their objects in order and fewer than 128 levels. -/
structure Storable (value : Value) : Prop where
  noLeap : ∀ t, value = .date t → t.nanos < 1000000000
  ordered : ∀ json ∈ value.document?, json.Ordered
  shallow : ∀ json ∈ value.document?, json.depth < 128

/-- A value that is no point in time and no document can be stored. -/
theorem Storable.of_plain {value : Value} (hdate : ∀ t, value ≠ .date t)
    (hdocument : value.document? = none) : value.Storable where
  noLeap := by
    intro t ht
    exact absurd ht (hdate t)
  ordered := by simp [hdocument]
  shallow := by simp [hdocument]

/-- The value of a document that fits can be stored. -/
theorem storable_ofJson {json : Json} (h : json.Fits 0) : (ofJson json).Storable := by
  have hdepth : json.depth < 128 := by
    have := h.shallow
    unfold Json.mostOpen at this
    omega
  cases json with
  | array _ | object _ =>
    refine ⟨by simp [ofJson], ?_, ?_⟩ <;> rintro _ ⟨⟩
    · exact h.ordered
    · exact hdepth
  | number n =>
    rw [ofJson]
    cases n.toInt64? <;> exact .of_plain (by simp) rfl
  | null | bool _ | string _ => exact .of_plain (by simp [ofJson]) rfl

/-- Values whose documents have only numbers that are read back from their texts. Integers always
are. -/
def Rereadable (value : Value) : Prop :=
  ∀ json ∈ value.document?, ∀ x finite, Json.Token.number (.real x finite) ∈ json.tokens →
    Json.readNumber (Json.numberText (.real x finite)).toList = some (.real x finite)

end Value

namespace FieldType

/-- What a value is when it comes back from a field of a type: an integer is the nearest number, a
point in time has whole milliseconds, and a reference has only the identifier. Null is an empty
document under the two document types. -/
def restored (type : FieldType) (value : Value) : Option Value :=
  match type, value with
  | type, .null => type.loadNull
  | .number, .integer i => some (.number (.ofInt i.toInt))
  | .date, .date t => some (.date t.wholeMillis)
  | .reference, value => value.id?.map fun id => .record (Record.withId id)
  | _, value => some value

/-- What is read for a value that was stored under a type: a document is read from its text, any
other value is restored. -/
def reloaded (name : String) (type : FieldType) (value : Value) : Except Error (Option Value) :=
  match value.document? with
  | some json => (loadDocument name (.text (some json.text))).map some
  | none => .ok (type.restored value)

/-- A value with an identifier is reloaded as the record with this identifier. -/
theorem reloaded_reference (name : String) {value : Value} {id : Int64}
    (hid : value.id? = some id) :
    reference.reloaded name value = .ok (some (.record (Record.withId id))) := by
  cases value with
  | integer _ | number _ | record _ =>
    simp only [reloaded, Value.document?, restored, hid, Option.map_some]
  | null | text _ | boolean _ | date _ | object _ | array _ => cases hid

/-- What is stored for a value comes back from the engine, and this is what is loaded from it. -/
theorem load_of_store {name : String} {type : FieldType} {value : Value} {param : Param}
    (hstore : type.store name value = .ok param)
    (hleap : ∀ t, value = .date t → t.nanos < 1000000000) :
    ∃ d, param.returned = some d ∧ type.load name d = type.reloaded name value := by
  unfold store at hstore
  split at hstore
  · -- null
    cases hstore
    exact ⟨_, Param.returned_null _, rfl⟩
  · -- an integer under a number type
    cases hstore
    exact ⟨_, Param.returned_double _, rfl⟩
  · -- a number
    cases hstore
    exact ⟨_, Param.returned_double _, rfl⟩
  · -- a text
    cases hstore
    exact ⟨_, Param.returned_string _, rfl⟩
  · -- a truth value
    next b =>
    cases hstore
    refine ⟨_, Param.returned_bigInt _, ?_⟩
    cases b <;> rfl
  · -- a point in time
    next t =>
    cases hstore
    refine ⟨_, Param.returned_bigInt _, ?_⟩
    have hmillis : Instant.ofMillis? (Int64.ofInt t.millis).toInt = some t.wholeMillis := by
      rw [t.toInt_millis, t.ofMillis?_millis (hleap t rfl)]
    show (loadDate name (.int64 (some (Int64.ofInt t.millis)))).map some = .ok (some (.date _))
    simp only [loadDate, Datum.integer?, hmillis]
    rfl
  · -- an object
    cases hstore
    exact ⟨_, Param.returned_string _, rfl⟩
  · -- an array
    cases hstore
    exact ⟨_, Param.returned_string _, rfl⟩
  · -- a reference
    next _ hnull =>
    cases hid : value.id? with
    | none =>
      rw [hid] at hstore
      cases hstore
    | some id =>
      rw [hid] at hstore
      cases hstore
      exact ⟨_, Param.returned_bigInt _, (reloaded_reference name hid).symm⟩
  · -- no other value is stored
    cases hstore

/-- A document is loaded from a text that holds it. -/
theorem loadDocument_eq_ok_iff {name text : String} {value : Value} :
    loadDocument name (.text (some text)) = .ok value ↔
      ∃ json, Json.parse text = some json ∧ Value.ofJson json = value := by
  have hload : loadDocument name (.text (some text))
      = match Json.parse text with
        | some json => .ok (.ofJson json)
        | none => .error (.decode name) := rfl
  rw [hload]
  cases Json.parse text <;> simp

/-- A document that is stored is restored as it is. -/
theorem restored_of_document {name : String} {type : FieldType} {value : Value} {param : Param}
    (hstore : type.store name value = .ok param) {json : Json}
    (hdocument : value.document? = some json) : type.restored value = some value := by
  cases value with
  | object _ | array _ => cases type <;> first | rfl | cases hstore
  | null | integer _ | number _ | text _ | boolean _ | date _ | record _ => cases hdocument

/-- A value that the store can hold is restored if and only if the numbers of its documents are read
back from their texts. -/
theorem reloaded_eq_restored_iff {name : String} {type : FieldType} {value : Value} {param : Param}
    (hstore : type.store name value = .ok param) (hvalue : value.Storable) :
    type.reloaded name value = .ok (type.restored value) ↔ value.Rereadable := by
  unfold reloaded
  cases hdocument : value.document? with
  | none =>
    refine iff_of_true rfl ?_
    intro json hjson
    rw [hdocument] at hjson
    cases hjson
  | some json =>
    have hparse := Json.parse_text_eq_self_iff (hvalue.ordered json hdocument)
      (Nat.le_of_lt_succ (hvalue.shallow json hdocument))
    have hload : (loadDocument name (.text (some json.text))).map some = .ok (some value)
        ↔ Json.parse json.text = some json := by
      rw [map_eq_ok]
      constructor
      · rintro ⟨v, hv, hvalue⟩
        obtain ⟨json', hjson', rfl⟩ := loadDocument_eq_ok_iff.1 hv
        rwa [(Value.ofJson_eq_iff hdocument).1 (Option.some.inj hvalue)] at hjson'
      · intro h
        refine ⟨value, loadDocument_eq_ok_iff.2 ⟨json, h, ?_⟩, rfl⟩
        exact (Value.ofJson_eq_iff hdocument).2 rfl
    rw [restored_of_document hstore hdocument, hload, hparse]
    constructor
    · intro h json' hjson'
      rw [hdocument] at hjson'
      cases hjson'
      exact h
    · intro h
      exact h json hdocument

/-- Where a field adds the restored value to a record, it was loaded. -/
theorem eq_restored_of_or_eq {name : String} {type : FieldType} {value : Value} {param : Param}
    (hstore : type.store name value = .ok param) {loaded other : Option Value}
    (hloaded : type.reloaded name value = .ok loaded)
    (heq : loaded.or other = (type.restored value).or other) : loaded = type.restored value := by
  unfold reloaded at hloaded
  cases hdocument : value.document? with
  | none =>
    rw [hdocument] at hloaded
    exact (Except.ok.inj hloaded).symm
  | some json =>
    rw [hdocument] at hloaded
    obtain ⟨v, -, rfl⟩ := map_eq_ok.1 hloaded
    rw [restored_of_document hstore hdocument] at heq ⊢
    exact heq

/-! ## What is loaded -/

/-- What is passed through is no point in time and no document. -/
theorem storable_passThrough (d : Datum) : d.passThrough.Storable := by
  cases d with
  | boolean v | int32 v | int64 v | uint32 v | uint64 v | float v | double v | text v | binary v =>
    cases v <;> exact .of_plain (by simp [Datum.passThrough]) rfl

theorem storable_loadNumber (d : Datum) : (loadNumber d).Storable := by
  unfold loadNumber
  split
  · exact .of_plain (by simp) rfl
  · exact .of_plain (by simp) rfl
  · exact storable_passThrough d

theorem storable_of_loadDate {name : String} {d : Datum} {value : Value}
    (h : loadDate name d = .ok value) : value.Storable := by
  unfold loadDate at h
  split at h
  · cases h
  · split at h
    · next t ht =>
      cases h
      refine ⟨?_, by simp [Value.document?], by simp [Value.document?]⟩
      rintro _ ⟨⟩
      exact Instant.nanos_lt_of_ofMillis? ht
    · cases h

theorem storable_of_loadDocument {name : String} {d : Datum} {value : Value}
    (h : loadDocument name d = .ok value) : value.Storable := by
  unfold loadDocument at h
  split at h
  · split at h
    · next json hparse =>
      cases h
      exact Value.storable_ofJson (Json.fits_of_parse hparse)
    · cases h
  · cases h

theorem storable_of_loadNull {type : FieldType} {value : Value} (h : type.loadNull = some value) :
    value.Storable := by
  cases type with
  | object =>
    cases h
    have hfits : (Json.object []).Fits 0 := Json.fits_object_iff.2 ⟨by decide, .nil, by simp⟩
    exact Value.storable_ofJson hfits
  | array =>
    cases h
    have hfits : (Json.array []).Fits 0 := Json.fits_array_iff.2 ⟨by decide, by simp⟩
    exact Value.storable_ofJson hfits
  | number | string | boolean | date | reference => cases h

/-- Every value that is loaded from a field can be stored in a field. -/
theorem storable_of_load {name : String} {type : FieldType} {d : Datum} {value : Value}
    (h : type.load name d = .ok (some value)) : value.Storable := by
  unfold load at h
  split at h
  · exact storable_of_loadNull (Except.ok.inj h)
  obtain ⟨v, hv, hvalue⟩ := map_eq_ok.1 h
  obtain rfl := Option.some.inj hvalue
  cases type with
  | number =>
    cases hv
    exact storable_loadNumber d
  | string =>
    cases hv
    exact storable_passThrough d
  | boolean =>
    simp only [loadValue, loadBoolean] at hv
    split at hv <;> cases hv <;> exact .of_plain (by simp) rfl
  | date => exact storable_of_loadDate hv
  | object | array => exact storable_of_loadDocument hv
  | reference =>
    simp only [loadValue, loadReference] at hv
    split at hv <;> cases hv
    exact .of_plain (by simp) rfl

end FieldType

end RecordMapping
