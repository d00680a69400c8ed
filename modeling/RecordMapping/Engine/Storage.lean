import RecordMapping.Engine.Numeral
import RecordMapping.Error
import RecordMapping.Text.Utf8

/-!
# The storage of the embedded engine

The embedded engine knows five kinds of values. Physical values become one of them when they are
bound, and come back from them when they are read. A column without a declared class keeps values
as they are; an identifier column holds integers, and assigns the next one in place of null.
-/

namespace RecordMapping

/-- A value in the storage of the engine. Text is kept as bytes, and need not be valid. -/
inductive StoredValue where
  | null
  | integer (value : Int64)
  | real (value : Binary64)
  | text (bytes : List UInt8)
  | blob (bytes : List UInt8)
  deriving DecidableEq

/-- The stored value of a physical value. An unsigned integer beyond the signed range wraps
around. -/
def Datum.stored : Datum → StoredValue
  | .boolean (some b) => .integer (if b then 1 else 0)
  | .int32 (some i) => .integer i.toInt64
  | .int64 (some i) => .integer i
  | .uint32 (some n) => .integer (Int64.ofNat n.toNat)
  | .uint64 (some n) => .integer n.toInt64
  | .float (some x) => .real x.widen
  | .double (some x) => .real x
  | .text (some s) => .text (Text.toBytes s)
  | .binary (some bytes) => .blob bytes
  | _ => .null

namespace StoredValue

/-- The physical value of a stored value. Text has to be valid. -/
def datum : StoredValue → Except EngineError Datum
  | .null => .ok (.text none)
  | .integer i => .ok (.int64 (some i))
  | .real x => .ok (.double (some x))
  | .text bytes =>
    match Text.ofBytes? bytes with
    | some s => .ok (.text (some s))
    | none => .error (.root "invalid UTF-8 in text value")
  | .blob bytes => .ok (.binary (some bytes))

/-- What the engine keeps of a bound value: what is no number is kept as null. -/
def kept : StoredValue → StoredValue
  | .real x => if x.isNaN then .null else .real x
  | v => v

/-- The integer that an identifier column makes of a value, if it accepts the value. -/
def identifier? : StoredValue → Option Int64
  | .integer i => some i
  | .real x => x.storedInteger?
  | .text bytes => do (← StoredNumeral.ofChars? (← Text.ofBytes? bytes).toList).integer?
  | _ => none

end StoredValue

/-! ## Opening a database -/

/-- The database that is opened unless another one is named: one in memory. -/
def defaultDatabase : String := "file::memory:?cache=shared"

/-- The database to open, given the name in the environment, if it has one. -/
def databaseName (environment : Option String) : String := environment.getD defaultDatabase

/-- Whether a name is that of a database in memory. -/
def isMemoryDatabase (name : String) : Bool :=
  name = "" || name = ":memory:" || "file::memory:".toList.isPrefixOf name.toList

/-- Opens a database, which has to be one in memory. -/
def openDatabase (name : String) : Except EngineError Unit :=
  if isMemoryDatabase name then .ok ()
  else .error (.root ("failed to open SQLite database " ++ name))

/-! ## A table in memory -/

/-- A column of a stored table. -/
structure StoredColumn where
  name : String
  declaredType : String
  /-- Whether the column holds the identifiers that the engine assigns. -/
  isIdentifier : Bool

/-- A table in memory: its rows by ascending identifier, and the greatest one ever assigned. -/
structure StoredTable where
  columns : List StoredColumn
  rows : List (Int × List StoredValue)
  greatest : Int

namespace StoredTable

/-- The failure of a statement that the engine cannot make sense of. -/
def unprepared : EngineError := .root "failed to prepare statement"

/-- The failure of a statement that the engine cannot carry out. -/
def unexecuted : EngineError := .root "failed to execute statement"

/-- The definition of an identifier column. -/
def identifierType : String := "INTEGER PRIMARY KEY AUTOINCREMENT"

/-- The type of a column that keeps values as they are; it may also be left out. -/
def verbatimType : String := "BLOB"

/-- A column as it is defined. The case of a definition does not count, and a known type is
reported in capitals. -/
def column (name definition : String) : StoredColumn :=
  let capitals := definition.toList.map Char.toUpper
  if capitals = identifierType.toList then ⟨name, "INTEGER", true⟩
  else if capitals = verbatimType.toList then ⟨name, verbatimType, false⟩
  else ⟨name, definition, false⟩

/-- Whether a text can stand in a statement, which ends at the character `U+0000`. -/
def isStatable (text : String) : Bool := !text.toList.contains '\x00'

/-- A name as it is compared with others: without regard to case. -/
def folded (name : String) : List Char := name.toList.map Char.toLower

/-- Whether a list of names has two that are the same. -/
def hasDuplicate : List (List Char) → Bool
  | [] => false
  | name :: rest => rest.contains name || hasDuplicate rest

/-- Creates a table with the given column names and definitions. No two names are the same, and
at most one column is an identifier column. -/
def create (columns : List (String × String)) : Except EngineError StoredTable :=
  let stored := columns.map fun (name, definition) => column name definition
  if columns.isEmpty || !columns.all (fun c => isStatable c.1 && isStatable c.2) ||
      hasDuplicate (columns.map fun c => folded c.1) ||
      1 < (stored.filter StoredColumn.isIdentifier).length then .error unprepared
  else .ok ⟨stored, [], 0⟩

/-- Puts a row in its place by its identifier. -/
def place (id : Int) (row : List StoredValue) :
    List (Int × List StoredValue) → List (Int × List StoredValue)
  | [] => [(id, row)]
  | (i, r) :: rest => if id < i then (id, row) :: (i, r) :: rest else (i, r) :: place id row rest

/-- The identifier that a row asks for, as `none` where it asks for the next one, or a failure
where it cannot be one. -/
def requested (columns : List StoredColumn) (row : List StoredValue) :
    Except EngineError (Option Int) :=
  match (columns.zip row).find? (·.1.isIdentifier) with
  | none | some (_, .null) => .ok none
  | some (_, value) =>
    match value.identifier? with
    | some i => .ok (some i.toInt)
    | none => .error unexecuted

/-- A row with its identifier in the identifier column. -/
def withIdentifier (columns : List StoredColumn) (id : Int) (row : List StoredValue) :
    List StoredValue :=
  columns.zipWith (fun c v => if c.isIdentifier then .integer (Int64.ofInt id) else v) row

/-- Inserts a row of bound values, one for each column. -/
def insert (t : StoredTable) (row : List Datum) : Except EngineError StoredTable := do
  if row.length ≠ t.columns.length then throw unprepared
  let values := row.map fun d => d.stored.kept
  let id := (← requested t.columns values).getD (t.greatest + 1)
  if (int64? id).isNone || t.rows.any (·.1 == id) then throw unexecuted
  return { t with
    rows := place id (withIdentifier t.columns id values) t.rows
    greatest := max t.greatest id }

/-- What the engine reports about the columns. -/
def info (t : StoredTable) : List ColumnInfo :=
  t.columns.map fun c => ⟨c.name, c.declaredType, c.isIdentifier⟩

/-- A row as it is read back. -/
def readRow (t : StoredTable) (index : Nat) (row : List StoredValue) : Except EngineError Row := do
  let data ← row.mapM StoredValue.datum
  return ⟨toString index, (t.columns.map StoredColumn.name).zip data⟩

/-- All rows as they are read back. -/
def readRows (t : StoredTable) : Except EngineError (List Row) :=
  (t.rows.map Prod.snd).zipIdx.mapM fun (row, index) => t.readRow index row

end StoredTable

end RecordMapping
