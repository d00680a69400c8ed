import RecordMapping.Value.Basic
import RecordMapping.Text.Search

/-!
# Field types

Each field has one of seven types. The type decides in which class of column the field is stored,
and all but numbers and text mark their columns with the name of the type.
-/

namespace RecordMapping

/-- The type of a field. -/
inductive FieldType where
  | number
  | string
  | boolean
  | date
  | object
  | array
  | reference
  deriving DecidableEq

/-- The classes of columns that fields are stored in. -/
inductive StorageClass where
  | integer
  | real
  | text
  deriving DecidableEq

namespace StorageClass

/-- The type that a column of this class is declared with. -/
def keyword : StorageClass → String
  | .integer => "INTEGER"
  | .real => "REAL"
  | .text => "TEXT"

/-- The class of a column by its declared type, in any case: the first of the three classes with
one of its marks in the declaration. Other declarations belong to no class that fields use. -/
def ofDeclared? (declared : String) : Option StorageClass :=
  let upper := String.ofList (declared.toList.map Char.toUpper)
  if Text.contains upper "INT" then some .integer
  else if ["CHAR", "CLOB", "TEXT"].any (Text.contains upper) then some .text
  else if ["REAL", "FLOA", "DOUB"].any (Text.contains upper) then some .real
  else none

end StorageClass

namespace FieldType

/-- All field types, in their order. -/
def all : List FieldType := [.number, .string, .boolean, .date, .object, .array, .reference]

/-- The class of column that a type is stored in. -/
def storageClass : FieldType → StorageClass
  | .number => .real
  | .string | .object | .array => .text
  | .boolean | .date | .reference => .integer

/-- Whether columns of a type are named like their fields, without a mark. -/
def isPrimitive : FieldType → Bool
  | .number | .string => true
  | _ => false

/-- The name of a type. -/
def tag : FieldType → String
  | .number => "number"
  | .string => "string"
  | .boolean => "boolean"
  | .date => "date"
  | .object => "object"
  | .array => "array"
  | .reference => "reference"

/-- The type with a given name. -/
def ofTag? (text : String) : Option FieldType := all.find? (·.tag = text)

/-- The type that a value has by itself. Null has none, and a record has one only as a reference
that is declared. -/
def ofValue? : Value → Option FieldType
  | .null | .record _ => none
  | .integer _ | .number _ => some .number
  | .text _ => some .string
  | .boolean _ => some .boolean
  | .date _ => some .date
  | .object _ => some .object
  | .array _ => some .array

end FieldType

end RecordMapping
