import RecordMapping.Session.Dialogue

/-!
# Sessions

A session is a dialogue with an engine that may fail, and that keeps, for each handle of a table,
what the table was last seen to be. What it keeps stays when it fails.
-/

namespace RecordMapping

/-- What a table was seen to be: whether it exists, and the fields that it has. -/
structure Sighting where
  present : Bool
  fields : FieldSet
  deriving DecidableEq

namespace Sighting

/-- A table that does not exist. -/
def absent : Sighting := ⟨false, .empty⟩

/-- The fields of the table, or none if it does not exist. -/
def fields? (seen : Sighting) : Option FieldSet := if seen.present then some seen.fields else none

end Sighting

/-- What is kept for each handle, if anything is. -/
abbrev Caches := Handle → Option Sighting

/-- A dialogue that keeps what it saw of tables and may fail. -/
abbrev Session := ExceptT Error (StateT Caches Dialogue)

/-- Keeps what was seen for a handle, or forgets what is kept. -/
def Caches.set (caches : Caches) (handle : Handle) (seen : Option Sighting) : Caches :=
  fun h => if h = handle then seen else caches h

/-- The request of a handle for a statement, if it can be sent. -/
def Request.of (sender : Handle) (statement : Statement) : Except Error Request :=
  match h : statement.query with
  | .ok query => .ok ⟨sender, statement, query, h⟩
  | .error e => .error e

namespace Session

/-- Runs a dialogue. -/
def ofDialogue {α : Type} (d : Dialogue α) : Session α := ExceptT.lift (StateT.lift d)

/-- Goes on with a result, or fails with an error. -/
def ofExcept {α : Type} : Except Error α → Session α
  | .ok a => pure a
  | .error e => throw e

/-- What is kept for a handle. -/
def cached (handle : Handle) : Session (Option Sighting) := return (← get) handle

/-- Keeps what was seen for a handle, or forgets what is kept. -/
def setCache (handle : Handle) (seen : Option Sighting) : Session Unit :=
  modify fun caches => Caches.set caches handle seen

/-- Sends a statement of a handle that returns rows. A failure of the engine fails the session, with the
statement and its parameters. -/
def rows (sender : Handle) (statement : Statement) : Session (List Row) := do
  let request ← ofExcept (Request.of sender statement)
  match ← ofDialogue (.fetch request .done) with
  | .ok rows => return rows
  | .error e => throw (.statement request.query.sql request.query.params e)

end Session

end RecordMapping
