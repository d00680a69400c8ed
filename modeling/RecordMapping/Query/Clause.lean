import RecordMapping.Field.Storage
import RecordMapping.Field.Set
import RecordMapping.Sql.Filter

/-!
# Filters of records

A filter record names fields and the values they should have. Compiled against the fields of a
table, each key of it becomes one condition on a column of the table, or one join with the table
that a reference refers to; a key that names no field is passed over.
-/

namespace RecordMapping

/-- A reference to follow, with the filter for the table that it refers to. -/
structure ReferenceJoin where
  field : FieldSpec
  filter : Record

/-- What one key of a filter becomes. -/
inductive ClauseItem where
  | predicate (filter : Filter)
  | join (join : ReferenceJoin)

/-- A compiled filter: conditions on the table's own columns, which name no table, and joins. -/
structure Clause where
  predicates : List Filter
  joins : List ReferenceJoin

namespace ClauseItem

/-- The condition of an item. -/
def predicate? : ClauseItem → Option Filter
  | .predicate f => some f
  | .join _ => none

/-- The join of an item. -/
def join? : ClauseItem → Option ReferenceJoin
  | .predicate _ => none
  | .join j => some j

end ClauseItem

namespace Clause

/-- The clause of a list of items; conditions and joins each keep their order. -/
def ofItems (items : List ClauseItem) : Clause where
  predicates := items.filterMap ClauseItem.predicate?
  joins := items.filterMap ClauseItem.join?

/-- Whether a clause neither filters nor joins. -/
def isEmpty (clause : Clause) : Bool := clause.predicates.isEmpty && clause.joins.isEmpty

/-- A text with this character is a pattern. -/
def wildcard : Char := '%'

/-- The condition that the identifier has a value. -/
def identifierFilter : Value → Except Error Filter
  | .null => .ok (.isNull none idName)
  | value =>
    match value.id? with
    | some id => .ok (.equal none idName (.bigInt (some id)))
    | none => .error (.invalidValue idName .identifier (.value value))

/-- The filter for the table that a reference refers to. Null filters nothing, and an identifier
stands for the record that holds only it. -/
def referenceFilter (field : FieldSpec) : Value → Except Error Record
  | .null => .ok []
  | .record r => .ok r
  | value =>
    match value.id? with
    | some id => .ok (Record.withId id)
    | none => .error (.invalidValue field.name .nestedFilter (.value value))

/-- The condition that a field has a value: null matches null, and a pattern is compared as
one. -/
def fieldFilter (field : FieldSpec) (value : Value) : Except Error Filter :=
  match value with
  | .null => .ok (.isNull none field.column)
  | .text s =>
    if wildcard ∈ s.toList then .ok (.like none field.column s)
    else (field.store value).map (.equal none field.column ·)
  | value => (field.store value).map (.equal none field.column ·)

/-- What one key of a filter becomes. -/
def item (fields : FieldSet) (name : String) (value : Value) : Except Error (Option ClauseItem) :=
  if name = idName then (identifierFilter value).map (some <| .predicate ·)
  else
    match fields.get? name with
    | none => .ok none
    | some field =>
      if field.type = .reference then
        (referenceFilter field value).map fun filter => some (.join ⟨field, filter⟩)
      else (fieldFilter field value).map (some <| .predicate ·)

/-- Compiles a filter against the fields of a table. -/
def compile (fields : FieldSet) (filter : Record) : Except Error Clause := do
  let items ← filter.mapM fun (name, value) => item fields name value
  return ofItems (items.filterMap id)

end Clause

end RecordMapping
