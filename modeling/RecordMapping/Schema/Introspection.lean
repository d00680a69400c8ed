import RecordMapping.Field.Set

/-!
# Fields of a live table

The fields of a table are read off its columns. A column that carries the name of a type is a
field of that type. One that does not is a number or a text field by its declared type, or, if it
holds integers, a reference that keeps its own column name; other columns belong to no field. What
is read this way is optional and names no table that it refers to.
-/

namespace RecordMapping

/-- The field that a column belongs to, if there is one. The identifier is no field. -/
def columnField? (column : ColumnInfo) : Option FieldSpec :=
  if column.name = idName then none
  else match splitColumn column.name with
    | (name, some type) => some { name, type, required := false }
    | (name, none) =>
      match StorageClass.ofDeclared? column.declaredType with
      | some .real => some { name, type := .number, required := false }
      | some .text => some { name, type := .string, required := false }
      | some .integer =>
        some { name, type := .reference, required := false, physical := some column.name }
      | none => none

/-- The fields of a table with the given columns. -/
def fieldsOfColumns (columns : List ColumnInfo) : FieldSet :=
  .ofList (columns.filterMap columnField?)

end RecordMapping
