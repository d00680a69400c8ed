import RecordMapping.Schema.Introspection
import RecordMapping.Session.Basic

/-!
# Migration

A migrator brings the columns of one table into step with the fields that are required of it.
Columns are added and never dropped or changed. What the table was last seen to be is kept, until
the next statement that changes the table is sent, whether or not it succeeds; that a table does not
exist is never kept, since another handle may create it at any time.
-/

namespace RecordMapping

/-- The request for the columns of a table. -/
def reportRequest (sender : Option Handle) (table : String) : Request :=
  ⟨sender, .tableInfo table, ⟨tableInfoText, [.text (some table)]⟩, rfl⟩

/-- The engine's report of the columns of a table. A table without columns does not exist. -/
def tableInfo (table : String) (sender : Option Handle := none) :
    Dialogue (Except EngineError (List ColumnInfo)) :=
  .fetch (reportRequest sender table) fun
    | .error e => .done (.error (e.within ("failed to read table info for " ++ table)))
    | .ok rows =>
      match rows.mapM ColumnInfo.ofRow with
      | .ok columns => .done (.ok columns)
      | .error e => .done (.error (.root e.message))

/-- The name under which errors show the request for the columns of a table. -/
def tableInfoLabel : String := "pragma_table_info"

/-- The fields of a table as the engine reports them, or none if it does not exist. -/
def introspect (table : String) (sender : Option Handle := none) :
    Session (Option FieldSet) := do
  match ← Session.ofDialogue (tableInfo table sender) with
  | .error e => throw (.statement tableInfoLabel [.text (some table)] e)
  | .ok columns => return if columns.isEmpty then none else some (fieldsOfColumns columns)

/-- Sends a statement that changes a table, and gives the failure if it fails. -/
def alter (request : Request) : Dialogue (Option EngineError) :=
  .execute request fun
    | .ok () => .done none
    | .error e => .done (some (e.within ("failed to execute: " ++ request.query.sql)))

/-- Creates a table with the given fields. -/
def createTable (sender : Handle) (table : String) (fields : FieldSet) :
    Dialogue (Option EngineError) :=
  alter ⟨sender, .createTable table fields, ⟨createTableText table fields, []⟩, rfl⟩

/-- Adds the column of a field to a table. -/
def addColumn (sender : Handle) (table : String) (field : FieldSpec) :
    Dialogue (Option EngineError) :=
  alter ⟨sender, .addColumn table field, ⟨addColumnText table field, []⟩, rfl⟩

/-- Adds the columns of all the given fields, whether or not an earlier one fails, and gives the
first failure. -/
def addColumns (sender : Handle) (table : String) : List FieldSpec → Dialogue (Option EngineError)
  | [] => .done none
  | field :: rest => do
    let failure ← addColumn sender table field
    let later ← addColumns sender table rest
    return failure.or later

/-- What keeps the columns of one table in step with the fields that are required of it. -/
structure Migrator where
  handle : Handle
  table : String

namespace Migrator

/-- What is said about fields that are missing although no statement failed. -/
def unexplained : EngineError := .root "columns still missing after migration"

/-- Forgets what the table was seen to be. -/
def forget (m : Migrator) : Session Unit := Session.setCache m.handle none

/-- What the table is: what is kept of it, or else what the engine reports. A table that exists is
kept from then on. -/
def look (m : Migrator) : Session Sighting := do
  match ← Session.cached m.handle with
  | some seen => return seen
  | none =>
    match ← introspect m.table m.handle with
    | none => return .absent
    | some fields =>
      let seen : Sighting := ⟨true, fields⟩
      Session.setCache m.handle (some seen)
      return seen

/-- The fields that the table has, or none if it does not exist. -/
def current (m : Migrator) : Session (Option FieldSet) := return (← m.look).fields?

/-- Sends what adds the missing fields to a table that exists, or creates one that does not. -/
def migrate (m : Migrator) (seen : Sighting) (missing : FieldSet) : Dialogue (Option EngineError) :=
  if seen.present then addColumns m.handle m.table missing.specs
  else createTable m.handle m.table missing

end Migrator

namespace Sighting

/-- Whether the table exists and has all the required fields. -/
def covers (seen : Sighting) (required : FieldSet) : Bool :=
  seen.present && (seen.fields.missing required).isEmpty

/-- The names of the required fields that the table does not have; all of them if it does not
exist. -/
def lacking (seen : Sighting) (required : FieldSet) : List String :=
  if seen.present then (seen.fields.missing required).names else required.names

end Sighting

namespace Migrator

/-- Ensures that the table exists and has a column for each of the required fields, and gives the
fields that it has. After a change the engine is asked again: another handle may have made the
same change first, and then it does not matter that this one failed. -/
def ensure (m : Migrator) (required : FieldSet) : Session FieldSet := do
  let seen ← m.look
  if seen.covers required then return seen.fields
  else
    let failure ← Session.ofDialogue (m.migrate seen (seen.fields.missing required))
    m.forget
    let seen ← m.look
    if seen.covers required then return seen.fields
    else
      throw (.migrationConflict m.table (seen.lacking required) (failure.getD unexplained))

end Migrator

end RecordMapping
