import RecordMapping.Query.Clause
import RecordMapping.Table.Basic

/-!
# Planning a relational query

A filter may give a filter of its own to a reference, and so on inwards. Planning follows the
references through the registry, and makes sure of the columns of each table on the way. How deep
references nest is bounded, so that planning ends on every registry.
-/

namespace RecordMapping

/-- A table to be joined, along a reference field, with what is to be joined to it in turn. -/
inductive PlannedJoin where
  | mk (field : FieldSpec) (table : String) (fields : FieldSet) (predicates : List Filter)
      (joins : List PlannedJoin)

/-- A query on a table, with the tables to be joined to it. -/
structure Plan where
  table : String
  fields : FieldSet
  predicates : List Filter
  joins : List PlannedJoin

namespace Plan

/-- How deep references may nest. -/
def maxDepth : Nat := 16

/-- Plans the join along a reference of the table `owner`, where so many levels may still nest. -/
def join (registry : Registry) : Nat → String → ReferenceJoin → Session PlannedJoin
  | 0, owner, _ => throw (.joinDepthExceeded owner maxDepth)
  | depth + 1, owner, reference => do
    let target ← Session.ofExcept (registry.resolve owner reference.field)
    let fields ← target.schema
    let clause ← Session.ofExcept (Clause.compile fields reference.filter)
    let joins ← clause.joins.mapM (join registry depth target.name)
    return .mk reference.field target.name fields clause.predicates joins

/-- Plans a query on a table with the given fields. -/
def make (registry : Registry) (table : String) (fields : FieldSet) (filter : Record) :
    Session Plan := do
  let clause ← Session.ofExcept (Clause.compile fields filter)
  let joins ← clause.joins.mapM (join registry maxDepth table)
  return ⟨table, fields, clause.predicates, joins⟩

end Plan

end RecordMapping
