import RecordMapping.Field.Set
import RecordMapping.Sql.Filter

/-!
# Statements

The statements that the library sends. Each has its pieces, and `Statement.query` turns them into
the text and the physical values that go to the engine.
-/

namespace RecordMapping

/-- What goes to the engine: a text with question marks, and their values in order. -/
structure Query where
  sql : String
  params : List Datum
  deriving DecidableEq

/-- Whether a join drops rows without a match or keeps them with nulls. -/
inductive JoinKind where
  | inner
  | left
  deriving DecidableEq

/-- A table joined under an alias. -/
structure Join where
  kind : JoinKind
  table : String
  aliasName : String
  on : Filter

/-- Reads all columns of a table, and further expressions under names of their own. -/
structure Select where
  table : String
  aliasName : Option String := none
  projections : List (Expr × String) := []
  joins : List Join := []
  filters : List Filter := []
  /-- The columns to order by, ascending. -/
  order : List (Option String × String) := []
  limit : Option UInt64 := none

/-- Writes a row and reads it back. -/
structure Insert where
  table : String
  values : List (String × Param)

/-- Changes rows and reads them back. -/
structure Update where
  table : String
  values : List (String × Param)
  filters : List Filter

/-- A statement. -/
inductive Statement where
  /-- Asks for the columns of a table. -/
  | tableInfo (table : String)
  | select (select : Select)
  | insert (insert : Insert)
  | update (update : Update)
  /-- Creates a table with an identifier and the given fields. -/
  | createTable (table : String) (fields : FieldSet)
  | addColumn (table : String) (field : FieldSpec)
  /-- A statement of the caller. -/
  | custom (sql : String) (params : List Datum)

/-! ## Pieces -/

/-- The condition that all filters hold, if there are any. -/
def wherePieces (table : String) (filters : List Filter) : Pieces :=
  if filters.isEmpty then [] else .text " WHERE " :: ((Filter.and filters).expr table).pieces

namespace Select

/-- The name under which the rows of the table itself are read. -/
def source (s : Select) : String := s.aliasName.getD s.table

/-- The pieces of an expression that is read under a name. -/
def projectionPieces (projection : Expr × String) : Pieces :=
  .text ", " :: projection.1.pieces ++ [.text (" AS " ++ identifier projection.2)]

/-- The keyword of a join. -/
def joinKeyword : JoinKind → String
  | .inner => " INNER JOIN "
  | .left => " LEFT JOIN "

/-- The pieces of a join. -/
def joinPieces (source : String) (join : Join) : Pieces :=
  .text (joinKeyword join.kind ++ identifier join.table ++ " AS " ++ identifier join.aliasName ++
    " ON ") :: (join.on.expr source).pieces

/-- The text that orders the rows. -/
def orderText (source : String) (order : List (Option String × String)) : String :=
  if order.isEmpty then ""
  else " ORDER BY " ++ commaSeparated (order.map fun (table, column) =>
    ColumnRef.text ⟨table.getD source, column⟩ ++ " ASC")

/-- The pieces that limit the number of rows. -/
def limitPieces : Option UInt64 → Pieces
  | none => []
  | some n => [.text " LIMIT ", .bind (.bigUnsigned (some n))]

/-- The pieces of the statement. -/
def pieces (s : Select) : Pieces :=
  .text ("SELECT " ++ identifier s.source ++ ".*") :: s.projections.flatMap projectionPieces ++
    .text (" FROM " ++ identifier s.table ++ (s.aliasName.map (" AS " ++ identifier ·)).getD "") ::
      s.joins.flatMap (joinPieces s.source) ++ wherePieces s.source s.filters ++
        .text (orderText s.source s.order) :: limitPieces s.limit

end Select

/-- The pieces of an insertion. A row without values takes the defaults of its columns. -/
def Insert.pieces (i : Insert) : Pieces :=
  let start := "INSERT INTO " ++ identifier i.table
  let columns := commaSeparated (i.values.map fun v => identifier v.1)
  if i.values.isEmpty then [.text (start ++ " DEFAULT VALUES RETURNING *")]
  else
    .text (start ++ " (" ++ columns ++ ") VALUES (") ::
      Pieces.separated ", " (i.values.map fun v => [.bind v.2]) ++ [.text ") RETURNING *"]

/-- The pieces of an update. -/
def Update.pieces (u : Update) : Pieces :=
  .text ("UPDATE " ++ identifier u.table ++ " SET ") ::
    Pieces.separated ", "
      (u.values.map fun v => [.text (identifier v.1 ++ " = "), .bind v.2]) ++
    wherePieces u.table u.filters ++ [.text " RETURNING *"]

/-- The definition of a column. -/
def columnDefinition (field : FieldSpec) : String :=
  identifier field.column ++ " " ++ field.type.storageClass.keyword

/-- The definition of the identifier column. -/
def identifierDefinition : String :=
  identifier idName ++ " integer NOT NULL PRIMARY KEY AUTOINCREMENT"

/-- The text that creates a table. -/
def createTableText (table : String) (fields : FieldSet) : String :=
  "CREATE TABLE " ++ identifier table ++ " ( " ++
    commaSeparated (identifierDefinition :: fields.specs.map columnDefinition) ++ " )"

/-- The text that adds a column to a table. -/
def addColumnText (table : String) (field : FieldSpec) : String :=
  "ALTER TABLE " ++ identifier table ++ " ADD COLUMN " ++ columnDefinition field

/-- The text that asks for the columns of a table. -/
def tableInfoText : String := "SELECT name, type, pk FROM pragma_table_info(?) ORDER BY cid"

/-! ## Queries -/

/-- The query of a sequence of pieces, unless it binds a value without a physical one. -/
def Pieces.query (pieces : Pieces) : Except Error Query :=
  match Param.data pieces.params with
  | .ok params => .ok ⟨pieces.text, params⟩
  | .error value => .error (.unsupportedType (.param value))

namespace Insert

/-- The columns of the row. -/
def columns (i : Insert) : List String := i.values.map Prod.fst

/-- The values of the row. -/
def row (i : Insert) : List Param := i.values.map Prod.snd

/-- The error that a row has too few or too many values. -/
def widthMismatch (table : String) (columns values : Nat) : Error :=
  .statement ("INSERT INTO " ++ table) [] <| .root <|
    "ColValNumMismatch \x7b col_len: " ++ toString columns ++ ", val_len: " ++ toString values ++
      " \x7d"

/-- A row must have as many values as columns. One without any takes the defaults and is not
checked. -/
def checkWidth (i : Insert) : Except Error Unit :=
  if i.values.isEmpty ∨ i.columns.length = i.row.length then .ok ()
  else .error (widthMismatch i.table i.columns.length i.row.length)

/-- The query of an insertion. -/
def query (i : Insert) : Except Error Query := do
  i.checkWidth
  i.pieces.query

end Insert

/-- What is sent to the engine for a statement. -/
def Statement.query : Statement → Except Error Query
  | .tableInfo table => .ok ⟨tableInfoText, [.text (some table)]⟩
  | .select s => s.pieces.query
  | .insert i => i.query
  | .update u => u.pieces.query
  | .createTable table fields => .ok ⟨createTableText table fields, []⟩
  | .addColumn table field => .ok ⟨addColumnText table field, []⟩
  | .custom sql params => .ok ⟨sql, params⟩

end RecordMapping
