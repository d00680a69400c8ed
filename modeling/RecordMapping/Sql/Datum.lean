import RecordMapping.Value.Description

/-!
# Physical values and rows

A physical value is what goes to the engine as a parameter and comes back in a column. Each kind
has its own null. A row is a list of named physical values; a column is looked up by the first
place that has its name.
-/

namespace RecordMapping

/-- A physical value; `none` is the null of its kind. -/
inductive Datum where
  | boolean (value : Option Bool)
  | int32 (value : Option Int32)
  | int64 (value : Option Int64)
  | uint32 (value : Option UInt32)
  | uint64 (value : Option UInt64)
  | float (value : Option Binary32)
  | double (value : Option Binary64)
  | text (value : Option String)
  | binary (value : Option (List UInt8))
  deriving DecidableEq

namespace Datum

/-- Whether a physical value is null. -/
def isNull : Datum → Bool
  | .boolean v => v.isNone
  | .int32 v => v.isNone
  | .int64 v => v.isNone
  | .uint32 v => v.isNone
  | .uint64 v => v.isNone
  | .float v => v.isNone
  | .double v => v.isNone
  | .text v => v.isNone
  | .binary v => v.isNone

/-- A physical value in a message. -/
def describe : Datum → String
  | .boolean v => tagged "Boolean" (optional (v.map truth))
  | .int32 v => tagged "Int32" (optional (v.map fun i => toString i.toInt))
  | .int64 v => tagged "Int64" (optional (v.map fun i => toString i.toInt))
  | .uint32 v => tagged "Uint32" (optional (v.map fun n => toString n.toNat))
  | .uint64 v => tagged "Uint64" (optional (v.map fun n => toString n.toNat))
  | .float v => tagged "Float" (optional (v.map descriptionStyle.single))
  | .double v => tagged "Double" (optional (v.map descriptionStyle.double))
  | .text v => tagged "Str" (optional (v.map Text.quoted))
  | .binary v =>
    tagged "Binary" (optional (v.map fun bytes => bracketed (bytes.map fun b => toString b.toNat)))

/-- The integer that a physical value holds. Integers of all widths count as long as they fit, and
so do integral numbers of double precision. -/
def integer? : Datum → Option Int64
  | .int64 (some i) => some i
  | .int32 (some i) => some i.toInt64
  | .uint32 (some n) => some (Int64.ofNat n.toNat)
  | .uint64 (some n) => int64? n.toNat
  | .double (some x) => x.toInt64?
  | _ => none

end Datum

/-- A row of a result. -/
structure Row where
  /-- The position of the row in its result. -/
  index : String
  /-- The columns, in the order of the result. -/
  columns : Named Datum
  deriving DecidableEq

namespace Row

/-- The value of a column. -/
def get? (row : Row) (name : String) : Option Datum := row.columns.get? name

/-- Takes a column out of a row. -/
def take (row : Row) (name : String) : Option Datum × Row :=
  ((row.columns.take name).1, { row with columns := (row.columns.take name).2 })

end Row

/-! ## Column metadata -/

/-- What the engine reports about one column of a table. -/
structure ColumnInfo where
  name : String
  /-- The declared type, as it was written. -/
  declaredType : String
  /-- Whether the column is part of the primary key. -/
  primaryKey : Bool
  deriving DecidableEq

/-- Why a row of column metadata cannot be read. -/
inductive ColumnInfoError where
  | noName
  | noDeclaredType (column : String)
  | noPrimaryKey (column : String)

/-- What is said about a row of column metadata that cannot be read. -/
def ColumnInfoError.message : ColumnInfoError → String
  | .noName => "table info row is missing column name"
  | .noDeclaredType column =>
    "table info row for '" ++ column ++ "' is missing declared type"
  | .noPrimaryKey column =>
    "table info row for '" ++ column ++ "' is missing primary key flag"

/-- Reads a row of column metadata. A declared type may be null and is empty then. -/
def ColumnInfo.ofRow (row : Row) : Except ColumnInfoError ColumnInfo := do
  let name ← match row.get? "name" with
    | some (.text (some name)) => pure name
    | _ => throw .noName
  let declaredType ← match row.get? "type" with
    | some (.text (some declared)) => pure declared
    | some d => if d.isNull then pure "" else throw (.noDeclaredType name)
    | none => throw (.noDeclaredType name)
  let primaryKey ← match row.get? "pk" with
    | some (.int64 (some pk)) => pure (decide (0 < pk.toInt))
    | some (.int32 (some pk)) => pure (decide (0 < pk.toInt))
    | some (.boolean (some pk)) => pure pk
    | _ => throw (.noPrimaryKey name)
  return { name, declaredType, primaryKey }

end RecordMapping
