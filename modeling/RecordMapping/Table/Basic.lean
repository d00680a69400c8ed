import RecordMapping.Schema.Migration

/-!
# Tables

A table is known by its name, and some of its fields may be declared. The fields that an operation
works with are those that the table has, with the declared ones laid over them. A table without
declared fields takes its fields from the records that are written to it.
-/

namespace RecordMapping

/-- A handle of a table. -/
structure Table where
  handle : Handle
  name : String
  declared : FieldSet

namespace Table

/-- The migrator of the table. -/
def migrator (t : Table) : Migrator := ⟨t.handle, t.name⟩

/-- Ensures that the table has the required fields, and gives those to work with. -/
def ensure (t : Table) (required : FieldSet) : Session FieldSet :=
  return (← t.migrator.ensure required).overlay t.declared

/-- Ensures that the table has the declared fields, and gives those to work with. -/
def schema (t : Table) : Session FieldSet := t.ensure t.declared

/-- The fields that the table has, with the declared ones laid over them, or none if it does not
exist. -/
def known (t : Table) : Session (Option FieldSet) :=
  return (← t.migrator.current).map (·.overlay t.declared)

/-- The fields to work with in reading, or none if the table does not exist. Only a table with
declared fields is created for that. -/
def live (t : Table) : Session (Option FieldSet) := do
  unless t.declared.isEmpty do discard t.schema
  t.known

/-- The fields that writing a record requires: those declared, and those that the other values of
the record call for. -/
def requiredFor (t : Table) (record : Record) : Except Error FieldSet :=
  (FieldSet.deduce (record.filter fun (name, _) => !t.declared.contains name)).map
    t.declared.overlay

/-- Forgets what the table was seen to be. -/
def forget (t : Table) : Session Unit := t.migrator.forget

end Table

/-- The tables that references can refer to, by name. -/
structure Registry where
  tables : List Table

namespace Registry

/-- The registry without tables. -/
def empty : Registry := ⟨[]⟩

/-- Registers a table under its name, in place of an earlier one. -/
def register (r : Registry) (t : Table) : Registry :=
  ⟨t :: r.tables.filter (·.name ≠ t.name)⟩

/-- The table of the given name. -/
def get? (r : Registry) (name : String) : Option Table := r.tables.find? (·.name = name)

/-- The table that a reference field of the table `owner` refers to. -/
def resolve (r : Registry) (owner : String) (field : FieldSpec) : Except Error Table :=
  match field.target.bind r.get? with
  | some t => .ok t
  | none => .error (.referenceResolution owner field.name field.target)

/-- Forgets what the registered tables were seen to be. -/
def reset (r : Registry) : Session Unit := r.tables.forM Table.forget

end Registry

end RecordMapping
