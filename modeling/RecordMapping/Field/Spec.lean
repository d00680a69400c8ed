import RecordMapping.Field.Type

/-!
# Fields and their columns

The column of a number or text field is named like the field. Every other column name is the field
name, two colons and the name of the type, so that the type can be read back from it. A column
that was not named by this rule keeps its own name as the physical name of its field.
-/

namespace RecordMapping

/-- One field of a table. -/
structure FieldSpec where
  name : String
  type : FieldType
  /-- A required field without a value is read as null, an optional one is left out. A reference
  that is required leaves out rows without a target when it is joined. -/
  required : Bool := true
  /-- The table that a reference refers to. -/
  target : Option String := none
  /-- The column name, where it does not follow from name and type. -/
  physical : Option String := none
  deriving DecidableEq

/-- The column name of a field of the given name and type. -/
def physicalName (name : String) (type : FieldType) : String :=
  if type.isPrimitive then name else name ++ "::" ++ type.tag

/-- A column name taken apart into field name and type. What follows the last two colons counts as
a type only if it is the name of one. -/
def splitColumn (column : String) : String × Option FieldType :=
  match Text.splitLast ':' column with
  | none => (column, none)
  | some (name, tag) =>
    match FieldType.ofTag? tag with
    | some type => (name, some type)
    | none => (column, none)

/-- The column name of a field. -/
def FieldSpec.column (field : FieldSpec) : String :=
  field.physical.getD (physicalName field.name field.type)

end RecordMapping
