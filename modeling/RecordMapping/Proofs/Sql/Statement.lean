import Mathlib.Data.List.Forall2
import RecordMapping.Proofs.Results
import RecordMapping.Table.Gateway

/-!
# What is sent for a row and for a table

The text of a statement that writes a row, and its parameters. The text lists the columns
(`insertText`, `updateText`), the parameters are the physical values in the same order, and nothing
else is among them but the identifier that an update asks for. The text of a statement that creates
a table lists its columns with their classes (`creationText`), and one that adds a column names this
one (`additionText`); these have no parameters.
-/

namespace RecordMapping

/-! ## Pieces -/

namespace Pieces

@[simp] theorem text_nil : text [] = "" := rfl

@[simp] theorem text_cons (piece : Piece) (rest : Pieces) :
    text (piece :: rest) = pieceText piece ++ text rest := String.join_cons

@[simp] theorem text_append (a b : Pieces) : text (a ++ b) = text a ++ text b := by
  unfold text
  rw [List.map_append, String.join_append]

/-- Separated parts are written with the separator between their texts. -/
theorem text_separated (separator : String) (parts : List Pieces) :
    text (separated separator parts) = separator.intercalate (parts.map text) := by
  unfold separated
  induction parts with
  | nil => rfl
  | cons part rest ih =>
    cases rest with
    | nil => simp
    | cons next rest =>
      rw [List.intercalate_cons_cons, text_append, text_append, ih]
      simp [pieceText]

/-- Separators bind nothing. -/
theorem params_separated (separator : String) (parts : List Pieces) :
    params (separated separator parts) = parts.flatMap params := by
  unfold separated
  induction parts with
  | nil => rfl
  | cons part rest ih =>
    cases rest with
    | nil => simp
    | cons next rest =>
      rw [List.intercalate_cons_cons, params_append, params_append, ih]
      simp

/-- Pieces whose parameters have physical values make a query of their text and these values. -/
theorem query_of_data {pieces : Pieces} {data : List Datum}
    (h : Param.data pieces.params = .ok data) : pieces.query = .ok ⟨pieces.text, data⟩ := by
  unfold query
  rw [h]

end Pieces

/-- Values that are bound one by one are the parameters, in their order. -/
theorem flatMap_params_bind (values : Named Param) (pieces : String × Param → Pieces)
    (h : ∀ v ∈ values, (pieces v).params = [v.2]) :
    (values.map pieces).flatMap Pieces.params = values.map Prod.snd := by
  induction values with
  | nil => rfl
  | cons v rest ih =>
    rw [List.map_cons, List.flatMap_cons, h v List.mem_cons_self,
      ih fun v hv => h v (List.mem_cons_of_mem _ hv)]
    rfl

/-! ## Insertions -/

/-- The text that inserts a row with values in some columns. -/
def insertText (table : String) (columns : List String) : String :=
  if columns.isEmpty then "INSERT INTO " ++ identifier table ++ " DEFAULT VALUES RETURNING *"
  else
    "INSERT INTO " ++ identifier table ++ " (" ++ commaSeparated (columns.map identifier) ++
      ") VALUES (" ++ commaSeparated (List.replicate columns.length "?") ++ ") RETURNING *"

namespace Insert

theorem text_pieces (i : Insert) : i.pieces.text = insertText i.table (Named.names i.values) := by
  unfold pieces insertText
  cases hvalues : i.values with
  | nil => simp [Named.names, Pieces.pieceText]
  | cons v rest =>
    -- the list of values is kept whole, since its parts are separated
    rw [← hvalues]
    have hne : i.values.isEmpty = false := by rw [hvalues]; rfl
    have hnames : (Named.names i.values).isEmpty = false := by rw [hvalues]; rfl
    rw [hne, hnames]
    simp [Pieces.text_separated, Pieces.pieceText, commaSeparated, Named.names, Function.comp_def,
      String.append_assoc]

theorem params_pieces (i : Insert) : i.pieces.params = i.values.map Prod.snd := by
  unfold pieces
  cases hvalues : i.values with
  | nil => rfl
  | cons v rest =>
    rw [← hvalues]
    have hne : i.values.isEmpty = false := by rw [hvalues]; rfl
    have hbound := flatMap_params_bind i.values (fun v => [.bind v.2]) fun _ _ => rfl
    simp [hne, Pieces.params_separated, hbound]

/-- A row has a value for each of its columns. -/
theorem checkWidth_eq (i : Insert) : i.checkWidth = .ok () := by
  have hwidth : i.columns.length = i.row.length := by
    rw [columns, row, List.length_map, List.length_map]
  exact if_pos (.inr hwidth)

theorem query_eq_pieces (i : Insert) : i.query = i.pieces.query := by
  rw [query, checkWidth_eq]
  rfl

end Insert

/-! ## Updates -/

/-- The text that changes some columns of the row with an identifier. -/
def updateText (table : String) (columns : List String) : String :=
  "UPDATE " ++ identifier table ++ " SET " ++
    commaSeparated (columns.map fun column => identifier column ++ " = ?") ++ " WHERE " ++
      identifier table ++ "." ++ identifier idName ++ " = ? RETURNING *"

namespace Update

variable {table : String} {values : Named Param} {id : Int64}

theorem wherePieces_hasId (table : String) (id : Int64) :
    wherePieces table [hasId id]
      = [.text " WHERE ", .text (ColumnRef.text ⟨table, idName⟩ ++ " = "), .bind (.bigInt id)] := rfl

theorem text_pieces (id : Int64) :
    (pieces ⟨table, values, [hasId id]⟩).text = updateText table values.names := by
  unfold pieces updateText
  rw [wherePieces_hasId]
  simp [Pieces.text_separated, Pieces.pieceText, commaSeparated, Named.names, Function.comp_def,
    ColumnRef.text, String.append_assoc]

theorem params_pieces :
    (pieces ⟨table, values, [hasId id]⟩).params = values.map Prod.snd ++ [.bigInt id] := by
  have hbound := flatMap_params_bind values
    (fun v => [.text (identifier v.1 ++ " = "), .bind v.2]) fun _ _ => rfl
  unfold pieces
  rw [wherePieces_hasId]
  simp [Pieces.params_separated, hbound]

end Update

/-! ## Tables -/

/-- The class of the columns that hold the values of a type. -/
def columnClass : FieldType → String
  | .number => "REAL"
  | .string | .object | .array => "TEXT"
  | .boolean | .date | .reference => "INTEGER"

/-- The text that creates a table with an identifier and a column for each of some fields. -/
def creationText (table : String) (specs : List FieldSpec) : String :=
  "CREATE TABLE " ++ identifier table ++ " ( \"id\" integer NOT NULL PRIMARY KEY AUTOINCREMENT" ++
    String.join (specs.map fun f => ", " ++ identifier f.column ++ " " ++ columnClass f.type) ++ " )"

/-- The text that adds the column of a field to a table. -/
def additionText (table : String) (field : FieldSpec) : String :=
  "ALTER TABLE " ++ identifier table ++ " ADD COLUMN " ++ identifier field.column ++ " " ++
    columnClass field.type

theorem keyword_storageClass (type : FieldType) : type.storageClass.keyword = columnClass type := by
  cases type <;> rfl

/-- A list that starts with a part has a separator before each of the others. -/
theorem commaSeparated_cons (first : String) (rest : List String) :
    commaSeparated (first :: rest) = first ++ String.join (rest.map (", " ++ ·)) := by
  unfold commaSeparated
  induction rest generalizing first with
  | nil => simp
  | cons next rest ih =>
    rw [String.intercalate_cons_cons, ih, List.map_cons, String.join_cons]
    simp [String.append_assoc]

/-- What is sent to ask for the columns of a table. -/
theorem query_tableInfo (table : String) :
    (Statement.tableInfo table).query = .ok
      ⟨"SELECT name, type, pk FROM pragma_table_info(?) ORDER BY cid", [.text (some table)]⟩ :=
  rfl

/-- What is sent to create a table. -/
theorem query_createTable (table : String) (fields : FieldSet) :
    (Statement.createTable table fields).query = .ok ⟨creationText table fields.specs, []⟩ := by
  -- the text before the first column is one piece here, and two in the statement
  have hstart : " ( " ++ identifierDefinition
      = " ( \"id\" integer NOT NULL PRIMARY KEY AUTOINCREMENT" := by decide
  have htext : createTableText table fields = creationText table fields.specs := by
    unfold createTableText creationText
    rw [commaSeparated_cons, List.map_map, ← hstart]
    simp [columnDefinition, keyword_storageClass, Function.comp_def, String.append_assoc]
  rw [Statement.query, htext]

/-- What is sent to add a column. -/
theorem query_addColumn (table : String) (field : FieldSpec) :
    (Statement.addColumn table field).query = .ok ⟨additionText table field, []⟩ := by
  rw [Statement.query, addColumnText, columnDefinition, keyword_storageClass]
  simp [additionText, String.append_assoc]

/-! ## Physical values -/

/-- The physical values of a list of columns with their parameters. -/
theorem data_eq_ok_iff {params : List Param} {data : List Datum} :
    Param.data params = .ok data ↔ List.Forall₂ (fun p d => p.datum = .ok d) params data :=
  mapM_eq_ok_iff

theorem StorageClass.exists_datum_null (storage : StorageClass) :
    ∃ d, storage.null.datum = .ok d := by
  cases storage <;> exact ⟨_, rfl⟩

/-- What is sent for an insertion. -/
theorem Insert.query_eq {i : Insert} {data : List Datum}
    (h : Param.data (i.values.map Prod.snd) = .ok data) :
    (Statement.insert i).query = .ok ⟨insertText i.table (Named.names i.values), data⟩ := by
  rw [← text_pieces]
  exact (query_eq_pieces i).trans (Pieces.query_of_data (by rw [params_pieces, h]))

/-- What is sent for an update: the identifier follows the values. -/
theorem Update.query_eq {table : String} {values : Named Param} {id : Int64} {data : List Datum}
    (h : Param.data (values.map Prod.snd) = .ok data) :
    (Statement.update ⟨table, values, [hasId id]⟩).query
      = .ok ⟨updateText table (Named.names values), data ++ [.int64 id]⟩ := by
  have hid : List.Forall₂ (fun p d => p.datum = .ok d) [Param.bigInt id] [.int64 id] :=
    .cons rfl .nil
  have hall : Param.data (values.map Prod.snd ++ [.bigInt id]) = .ok (data ++ [.int64 id]) :=
    data_eq_ok_iff.2 (List.rel_append (data_eq_ok_iff.1 h) hid)
  rw [← text_pieces id]
  exact Pieces.query_of_data (by rw [params_pieces, hall])

/-- What is stored has a physical value: it is an integer, a number or a text. -/
theorem FieldType.exists_datum_of_store {name : String} {type : FieldType} {value : Value}
    {param : Param} (h : type.store name value = .ok param) : ∃ d, param.datum = .ok d := by
  unfold store at h
  split at h
  · -- null
    cases h
    exact StorageClass.exists_datum_null _
  iterate 7
    · -- a value of the type itself
      cases h
      exact ⟨_, rfl⟩
  · -- a reference
    split at h <;> cases h
    exact ⟨_, rfl⟩
  · -- no other value is stored
    cases h

end RecordMapping
