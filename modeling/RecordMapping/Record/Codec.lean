import RecordMapping.Field.Set
import RecordMapping.Field.Storage

/-!
# Records and rows

`encode` gives the columns and parameters that store a record, and `decode` reads a row back into
a record. A row may carry the record that a reference refers to as a JSON object, which an
`Embedded` describes. The members of such an object are named by column, except that objects
embedded in it are named by field.
-/

namespace RecordMapping

/-- The columns that store the fields of a record, in the order of the fields, with their
parameters. Fields that the record does not have are left out, and so is what the fields do not
name. -/
def encode (fields : FieldSet) (record : Record) : Except Error (List (String × Param)) :=
  (fields.specs.filterMap fun field => (record.get? field.name).map (field, ·)).mapM
    fun (field, value) => (field.store value).map (field.column, ·)

/-! ## Embedded records -/

/-- A reference whose record is part of a row, as a JSON object in a column named like the
field. -/
inductive Embedded where
  | mk (field : String) (fields : FieldSet) (nested : List Embedded)

namespace Embedded

/-- The name of the reference field. -/
def field : Embedded → String
  | mk field _ _ => field

/-- The fields of the table that the reference refers to. -/
def fields : Embedded → FieldSet
  | mk _ fields _ => fields

/-- The references of that table whose records are part of the object in turn. -/
def nested : Embedded → List Embedded
  | mk _ _ nested => nested

end Embedded

/-- Adds what was read for a field to a record. A required field without a value is null. -/
def assign (field : FieldSpec) (value : Option Value) (record : Record) : Record :=
  match value with
  | some value => record.insert field.name value
  | none => if field.required then record.insert field.name .null else record

/-- Adds an identifier to a record, if there is one. -/
def assignId (id : Option Int64) (record : Record) : Record :=
  match id with
  | some id => record.insert idName (.integer id)
  | none => record

/-- The physical value that a member of an embedded object stands for. -/
def Json.datum : Json → Datum
  | .null => .text none
  | .bool b => .int64 (some (if b then 1 else 0))
  | .number n =>
    match n.toInt64? with
    | some i => .int64 (some i)
    | none => .double (some n.toBinary64)
  | .string s => .text (some s)
  | json => .text (some json.text)

/-- A reader of embedded records, by the name of the reference field. -/
abbrev Readers := Named (Json → Except Error Record)

/-- Reads the text of an embedded object. -/
def readText (column : String) (read : Json → Except Error Record) (text : String) :
    Except Error Value :=
  match Json.parse text with
  | some json => (read json).map .record
  | none => .error (.decode column)

/-- Reads one field of an embedded object, and takes its member out. An engine may hand an object
in an object over as text. -/
def readMember (readers : Readers) (field : FieldSpec) (members : Members) :
    Except Error (Option Value × Members) :=
  match readers.get? field.name with
  | some read =>
    let rest := Named.erase field.name members
    match members.get? field.name with
    | none | some .null => .ok (none, rest)
    | some (.string text) => (readText field.name read text).map (some ·, rest)
    | some json => (read json).map fun record => (some (.record record), rest)
  | none =>
    let rest := Named.erase field.column members
    match members.get? field.column with
    | none => .ok (none, rest)
    | some json => (field.load json.datum).map (·, rest)

/-- Reads the fields of an embedded object one after the other. -/
def readMembers (readers : Readers) : List FieldSpec → Members → Record → Except Error Record
  | [], _, record => .ok record
  | field :: rest, members, record => do
    let (value, members) ← readMember readers field members
    readMembers readers rest members (assign field value record)

/-- Reads an embedded object: its identifier first, then its fields. -/
def readObject (name : String) (fields : FieldSet) (readers : Readers) :
    Json → Except Error Record
  | .object members =>
    let id := (Named.get? members idName).bind fun json => json.datum.integer?
    readMembers readers fields.specs (Named.erase idName members) (assignId id [])
  | json => .error (.invalidValue name .jsonObject (.json json))

mutual
/-- Reads the record of a reference from an embedded object. -/
def Embedded.read : Embedded → Json → Except Error Record
  | .mk name fields nested => readObject name fields (Embedded.readers nested)
/-- The readers of embedded records. -/
def Embedded.readers : List Embedded → Readers
  | [] => []
  | e :: rest => (e.field, Embedded.read e) :: Embedded.readers rest
end

/-! ## Rows -/

/-- Reads one field of a row, and takes its columns out. -/
def decodeField (readers : Readers) (field : FieldSpec) (row : Row) :
    Except Error (Option Value × Row) :=
  let (physical, row) := row.take field.column
  match readers.get? field.name with
  | some read =>
    let (embedded, row) := row.take field.name
    match embedded with
    | some (.text (some text)) => (readText field.name read text).map (some ·, row)
    | _ => .ok (none, row)
  | none =>
    match physical with
    | some d => (field.load d).map (·, row)
    | none => .ok (none, row)

/-- Reads the fields of a row one after the other. -/
def decodeFields (readers : Readers) : List FieldSpec → Row → Record → Except Error Record
  | [], _, record => .ok record
  | field :: rest, row, record => do
    let (value, row) ← decodeField readers field row
    decodeFields readers rest row (assign field value record)

/-- Reads a row: its identifier first, then the fields. Columns that belong to no field are
dropped. -/
def decode (fields : FieldSet) (embedded : List Embedded) (row : Row) : Except Error Record :=
  let (id, row) := row.take idName
  decodeFields (Embedded.readers embedded) fields.specs row (assignId (id.bind Datum.integer?) [])

end RecordMapping
