import RecordMapping.Query.Relation
import RecordMapping.Text.Blank

/-!
# Operations on a table

The operations of the library. Each first makes sure that the table has the columns that it needs,
so tables and columns appear when they are first used.
-/

namespace RecordMapping

/-- The identifier that a value denotes. Text counts if it is a number within the range, with
white space around it at most. -/
def Value.lookupId? : Value → Option Int64
  | .text s => (Text.readInteger (Text.trimList s.toList)).bind int64?
  | value => value.id?

/-- The condition that the identifier has a value. -/
def hasId (id : Int64) : Filter := .equal none idName (.bigInt (some id))

namespace Table

/-- Reads the rows of a result. -/
def decodeRows (fields : FieldSet) (embedded : List Embedded) (rows : List Row) :
    Session (List Record) :=
  Session.ofExcept (rows.mapM (decode fields embedded))

/-- Reads the first row of a result, if there is one. -/
def decodeFirst (fields : FieldSet) (rows : List Row) : Session (Option Record) :=
  Session.ofExcept (rows.head?.mapM (decode fields []))

/-! ## Lists -/

/-- Looks for fields, makes a statement with them, and reads its rows. Where no fields are found
there are no records. -/
def listing (t : Table) (lookup : Session (Option FieldSet))
    (plan : FieldSet → Session (Statement × List Embedded)) : Session (List Record) := do
  match ← lookup with
  | none => return []
  | some fields =>
    let planned ← plan fields
    decodeRows fields planned.2 (← Session.rows t.handle planned.1)

/-- The condition on a table's own column that stands for a reference with a filter, if that names
the identifier alone. An empty filter stands for none. -/
def localReference (t : Table) (join : ReferenceJoin) : Except Error (Option Filter) :=
  let nested := Error.nestedFilter t.name join.field.name
  match join.filter with
  | [] => .ok none
  | [(name, value)] =>
    if name = idName then
      match value with
      | .null => .ok (some (.isNull none join.field.column))
      | value =>
        match value.id? with
        | some id => .ok (some (.equal none join.field.column (.bigInt (some id))))
        | none => .error nested
    else .error nested
  | _ => .error nested

/-- The statement that finds the records that match a filter, in the order of their identifiers.
References can be filtered by identifier only. -/
def findPlan (t : Table) (filter : Record) (fields : FieldSet) :
    Session (Statement × List Embedded) := do
  let clause ← Session.ofExcept (Clause.compile fields filter)
  let references ← Session.ofExcept (clause.joins.mapM t.localReference)
  return (.select
    { table := t.name
      filters := clause.predicates ++ references.filterMap id
      order := [(none, idName)] }, [])

/-- The statement that finds the records that match a filter, with those that they refer to. -/
def relatedPlan (t : Table) (registry : Registry) (filter : Record) (fields : FieldSet) :
    Session (Statement × List Embedded) := do
  let relational ← compileRelational registry t.name fields filter
  return (.select relational.select, relational.embedded)

/-- The records that match a filter, in the order of their identifiers. -/
def find (t : Table) (filter : Record) : Session (List Record) :=
  t.listing t.live (t.findPlan filter)

/-- The records that match a filter, with the records that its references refer to. -/
def findRelated (t : Table) (registry : Registry) (filter : Record) : Session (List Record) :=
  t.listing t.live (t.relatedPlan registry filter)

/-- Sends a statement of the caller and reads its rows with the fields of the table. -/
def runSql (t : Table) (sql : String) (params : List Datum) : Session (List Record) :=
  t.listing (some <$> t.schema) fun _ => return (.custom sql params, [])

/-! ## Single rows -/

/-- The record with the given identifier. -/
def findRow (t : Table) (id : Int64) : Session (Option Record) := do
  match ← t.live with
  | none => return none
  | some fields =>
    let rows ← Session.rows t.handle <| .select
      { table := t.name, filters := [hasId id], limit := some 1 }
    decodeFirst fields rows

/-- The record with the identifier that a value denotes. Other values find nothing and send
nothing. -/
def findById (t : Table) (id : Value) : Session (Option Record) :=
  match id.lookupId? with
  | none => return none
  | some id => t.findRow id

/-! ## Writes -/

/-- What a write does before its own statement: it ensures the fields that the record calls for, and
stores the values of the record in those that it is given. -/
def prepare (t : Table) (record : Record) : Session (FieldSet × Named Param) := do
  let required ← Session.ofExcept (t.requiredFor record)
  let fields ← t.ensure required
  let values ← Session.ofExcept (encode fields record)
  return (fields, values)

/-- The record that an insertion is answered with. -/
def storedRecord (table : String) (fields : FieldSet) (rows : List Row) : Except Error Record :=
  match rows.head?.mapM (decode fields []) with
  | .ok (some stored) => .ok stored
  | .ok none => .error (.missingRow table)
  | .error e => .error e

/-- Inserts a row with stored values. -/
def insertRow (t : Table) (fields : FieldSet) (values : Named Param) : Session Record := do
  let rows ← Session.rows t.handle (.insert ⟨t.name, values⟩)
  Session.ofExcept (storedRecord t.name fields rows)

/-- Changes a row to stored values; without any it is only read. -/
def updateRow (t : Table) (id : Int64) (fields : FieldSet) (values : Named Param) :
    Session (Option Record) := do
  if values.isEmpty then t.findRow id
  else decodeFirst fields (← Session.rows t.handle (.update ⟨t.name, values, [hasId id]⟩))

/-- Inserts a record and gives it as it is stored. The engine assigns the identifier. -/
def insert (t : Table) (record : Record) : Session Record := do
  let prepared ← t.prepare record
  t.insertRow prepared.1 prepared.2

/-- Changes the record with the identifier that a value denotes, and gives it as it is stored
then. -/
def update (t : Table) (id : Value) (changes : Record) : Session (Option Record) := do
  match id.lookupId? with
  | none => return none
  | some id =>
    let prepared ← t.prepare changes
    t.updateRow id prepared.1 prepared.2

end Table

end RecordMapping
