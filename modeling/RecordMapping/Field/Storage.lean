import RecordMapping.Field.Spec
import RecordMapping.Error
import RecordMapping.Json.Parser
import RecordMapping.Text.Utf8

/-!
# How values are stored

`FieldType.store` gives the parameter that stores a value in a column of a type, and
`FieldType.load` reads a physical value of such a column back. Storing is strict: a value of
another kind is refused, except that an integer is a number, and that a reference may be given by
its identifier alone. Loading accepts what engines make of stored values.
-/

namespace RecordMapping

namespace StorageClass

/-- The null that is stored in a column of a class. -/
def null : StorageClass → Param
  | .integer => .bigInt none
  | .real => .double none
  | .text => .string none

end StorageClass

namespace Datum

/-- A physical value as the value it most resembles. An unsigned integer beyond the signed range
wraps around, and bytes are read as text. -/
def passThrough : Datum → Value
  | .boolean (some b) => .boolean b
  | .int32 (some i) => .integer i.toInt64
  | .int64 (some i) => .integer i
  | .uint32 (some n) => .integer (Int64.ofNat n.toNat)
  | .uint64 (some n) => .integer n.toInt64
  | .float (some x) => .number x.widen
  | .double (some x) => .number x
  | .text (some s) => .text s
  | .binary (some bytes) => .text (Text.ofBytesLossy bytes)
  | _ => .null

end Datum

namespace FieldType

/-- The parameter that stores a value under a type, for the field of the given name. -/
def store (name : String) (type : FieldType) (value : Value) : Except Error Param :=
  match type, value with
  | type, .null => .ok type.storageClass.null
  | .number, .integer i => .ok (.double (some (.ofInt i.toInt)))
  | .number, .number x => .ok (.double (some x))
  | .string, .text s => .ok (.string (some s))
  | .boolean, .boolean b => .ok (.bigInt (some (if b then 1 else 0)))
  | .date, .date t => .ok (.bigInt (some (Int64.ofInt t.millis)))
  | .object, .object members => .ok (.string (some (Json.object members).text))
  | .array, .array items => .ok (.string (some (Json.array items).text))
  | .reference, value =>
    match value.id? with
    | some id => .ok (.bigInt (some id))
    | none => .error (.invalidValue name .identifier (.value value))
  | type, value => .error (.invalidValue name (.fieldType type) (.value value))

/-- What null is read as: an empty document under the two document types, nothing under others. -/
def loadNull : FieldType → Option Value
  | .object => some (.object [])
  | .array => some (.array [])
  | _ => none

/-- A number column. Integers that engines report with a sign are numbers. -/
def loadNumber : Datum → Value
  | .int64 (some i) => .number (.ofInt i.toInt)
  | .int32 (some i) => .number (.ofInt i.toInt)
  | d => d.passThrough

/-- A truth value is true if it is one; other integers are false. -/
def loadBoolean (name : String) : Datum → Except Error Value
  | .boolean (some b) => .ok (.boolean b)
  | .int64 (some i) => .ok (.boolean (i == 1))
  | .int32 (some i) => .ok (.boolean (i == 1))
  | d => .error (.invalidValue name (.fieldType .boolean) (.datum d))

/-- A point in time is stored as its milliseconds. -/
def loadDate (name : String) (d : Datum) : Except Error Value :=
  match d.integer? with
  | none => .error (.invalidValue name .milliseconds (.datum d))
  | some millis =>
    match Instant.ofMillis? millis.toInt with
    | some t => .ok (.date t)
    | none => .error (.invalidValue name .millisecondsInRange (.datum d))

/-- A document is stored as its text. -/
def loadDocument (name : String) : Datum → Except Error Value
  | .text (some s) =>
    match Json.parse s with
    | some json => .ok (.ofJson json)
    | none => .error (.decode name)
  | d => .error (.invalidValue name .jsonText (.datum d))

/-- A reference is stored as the identifier of the record it refers to. -/
def loadReference (name : String) (d : Datum) : Except Error Value :=
  match d.integer? with
  | some id => .ok (.record (Record.withId id))
  | none => .error (.invalidValue name .identifier (.datum d))

/-- The value of a stored physical value that is not null. -/
def loadValue (name : String) (type : FieldType) (d : Datum) : Except Error Value :=
  match type with
  | .number => .ok (loadNumber d)
  | .string => .ok d.passThrough
  | .boolean => loadBoolean name d
  | .date => loadDate name d
  | .object | .array => loadDocument name d
  | .reference => loadReference name d

/-- The value of a stored physical value, if it has one. -/
def load (name : String) (type : FieldType) (d : Datum) : Except Error (Option Value) :=
  if d.isNull then .ok type.loadNull else (type.loadValue name d).map some

end FieldType

namespace FieldSpec

/-- The parameter that stores a value in a field. -/
def store (field : FieldSpec) (value : Value) : Except Error Param :=
  field.type.store field.name value

/-- The value of what is stored in a field, if it has one. -/
def load (field : FieldSpec) (d : Datum) : Except Error (Option Value) :=
  field.type.load field.name d

end FieldSpec

end RecordMapping
