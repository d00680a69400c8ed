import Mathlib.Data.List.Infix
import RecordMapping.Proofs.Schema.Columns

/-!
# Declared types by the rules of affinity

The engine gives a column one of five affinities, by ordered rules on the marks that stand in its
declared type (`Affinity.ofDeclared`). The classes that fields are stored in follow these rules, except
that the rule for blobs is missing: a declaration that is a blob by the rules, and has a mark of real
numbers besides, counts as real (`StorageClass.ofDeclared?_eq`). So the columns without the name of a
type are read by their affinity, apart from these (`fieldsOfColumns_affinity`).
-/

namespace RecordMapping

/-! ## Marks -/

/-- A mark, which is given in capitals, stands in a declared type, in letters of any case. -/
def HasMark (declared mark : String) : Prop :=
  ∃ part, part <:+: declared.toList ∧ part.map Char.toUpper = mark.toList

/-- One of some marks stands in a declared type. -/
def HasAnyMark (declared : String) (marks : List String) : Prop :=
  ∃ mark ∈ marks, HasMark declared mark

theorem contains_upper_iff {declared mark : String} :
    Text.contains (String.ofList (declared.toList.map Char.toUpper)) mark = true
      ↔ HasMark declared mark := by
  rw [Text.contains, Text.containsList_iff, String.toList_ofList, List.infix_map_iff]
  simp only [HasMark, eq_comm]

theorem any_contains_upper_iff {declared : String} {marks : List String} :
    marks.any (Text.contains (String.ofList (declared.toList.map Char.toUpper))) = true
      ↔ HasAnyMark declared marks := by
  simp only [List.any_eq_true, contains_upper_iff, HasAnyMark]

instance (declared mark : String) : Decidable (HasMark declared mark) :=
  decidable_of_iff _ contains_upper_iff

instance (declared : String) (marks : List String) : Decidable (HasAnyMark declared marks) :=
  decidable_of_iff _ any_contains_upper_iff

/-! ## Affinities -/

/-- What the engine prefers to store in a column. -/
inductive Affinity where
  | integer
  | text
  | blob
  | real
  | numeric
  deriving DecidableEq

namespace Affinity

/-- The marks of columns of text. -/
def textMarks : List String := ["CHAR", "CLOB", "TEXT"]

/-- The marks of columns of real numbers. -/
def realMarks : List String := ["REAL", "FLOA", "DOUB"]

/-- The affinity of a column by its declared type: that of the first rule which applies. -/
def ofDeclared (declared : String) : Affinity :=
  if HasMark declared "INT" then .integer
  else if HasAnyMark declared textMarks then .text
  else if HasMark declared "BLOB" ∨ declared = "" then .blob
  else if HasAnyMark declared realMarks then .real
  else .numeric

/-- The class of columns with an affinity. Fields are stored in no column for blobs, and in none for
numbers of any kind. -/
def storageClass? : Affinity → Option StorageClass
  | .integer => some .integer
  | .text => some .text
  | .real => some .real
  | .blob | .numeric => none

/-- The field that a column with an affinity holds if its name tells no type: a number, a text, or a
reference that keeps the name of the column. -/
def field? (column : String) : Affinity → Option FieldSpec
  | .integer =>
    some { name := column, type := .reference, required := false, physical := some column }
  | .text => some { name := column, type := .string, required := false }
  | .real => some { name := column, type := .number, required := false }
  | .blob | .numeric => none

/-- A declared type is that of a blob by the rules, but has a mark of real numbers, too. -/
def IsRealBlob (declared : String) : Prop :=
  ofDeclared declared = .blob ∧ HasAnyMark declared realMarks

instance (declared : String) : Decidable (IsRealBlob declared) :=
  inferInstanceAs (Decidable (_ ∧ _))

end Affinity

open Affinity

/-! ## Classes of declared types -/

/-- The class of a declared type is that of its affinity, and real where blob and real meet. -/
theorem StorageClass.ofDeclared?_eq (declared : String) : ofDeclared? declared =
    if IsRealBlob declared then some .real else (Affinity.ofDeclared declared).storageClass? := by
  have htexts : ["CHAR", "CLOB", "TEXT"].any
      (Text.contains (String.ofList (declared.toList.map Char.toUpper))) = true
        ↔ HasAnyMark declared textMarks := any_contains_upper_iff
  have hreals : ["REAL", "FLOA", "DOUB"].any
      (Text.contains (String.ofList (declared.toList.map Char.toUpper))) = true
        ↔ HasAnyMark declared realMarks := any_contains_upper_iff
  unfold ofDeclared? IsRealBlob Affinity.ofDeclared
  simp only [contains_upper_iff, htexts, hreals]
  by_cases hint : HasMark declared "INT"
  · simp [hint, storageClass?]
  by_cases htext : HasAnyMark declared textMarks
  · simp [hint, htext, storageClass?]
  -- the rule for blobs comes before that for real numbers
  by_cases hblob : HasMark declared "BLOB" ∨ declared = ""
  · by_cases hreal : HasAnyMark declared realMarks <;> simp [hint, htext, hblob, hreal, storageClass?]
  · by_cases hreal : HasAnyMark declared realMarks <;> simp [hint, htext, hblob, hreal, storageClass?]

/-- A declared type has the class of its affinity unless blob and real meet in it. -/
theorem StorageClass.ofDeclared?_eq_storageClass?_iff {declared : String} :
    ofDeclared? declared = (Affinity.ofDeclared declared).storageClass? ↔ ¬IsRealBlob declared := by
  rw [ofDeclared?_eq]
  by_cases h : IsRealBlob declared
  · simp [h, h.1, storageClass?]
  · simp [h]

/-! ## Columns without a type in their names -/

/-- A column other than the identifier whose name does not end in the name of a type. -/
def ColumnInfo.IsUntagged (column : ColumnInfo) : Prop :=
  column.name ≠ idName ∧
    ∀ (front : String) (type : FieldType), column.name ≠ front ++ "::" ++ type.tag

instance (column : ColumnInfo) : Decidable column.IsUntagged :=
  decidable_of_iff (column.name ≠ idName ∧ splitColumn column.name = (column.name, none))
    (and_congr_right fun _ => splitColumn_eq_none_iff)

/-- A column without a type in its name is read by the class of its declared type. -/
theorem ColumnInfo.IsUntagged.columnField?_eq {column : ColumnInfo} (h : column.IsUntagged) :
    columnField? column
      = if IsRealBlob column.declaredType then Affinity.real.field? column.name
        else (Affinity.ofDeclared column.declaredType).field? column.name := by
  unfold columnField?
  rw [if_neg h.1, splitColumn_eq_none_iff.2 h.2]
  simp only [StorageClass.ofDeclared?_eq]
  by_cases hblob : IsRealBlob column.declaredType
  · rw [if_pos hblob, if_pos hblob]
    rfl
  · rw [if_neg hblob, if_neg hblob]
    cases Affinity.ofDeclared column.declaredType <;> rfl

/-- The field that a column is read as, by its affinity if its name tells no type. -/
def affinityField? (column : ColumnInfo) : Option FieldSpec :=
  if column.IsUntagged then (Affinity.ofDeclared column.declaredType).field? column.name
  else columnField? column

/-- A declared type has the class of its affinity, unless it is a blob by the rules with a mark of real
numbers in it; then its class is real. So a column that tells no type by its name is a number, a text
or a reference that keeps its own name, or is skipped, according to its affinity, unless this is the
case for it, and then it is a number; and the fields of a table are those by the affinities of such
columns where this is the case for none of them. -/
theorem fieldsOfColumns_affinity (declared : String) (columns : List ColumnInfo) :
    (StorageClass.ofDeclared? declared = (Affinity.ofDeclared declared).storageClass? ↔
      ¬IsRealBlob declared) ∧
    (IsRealBlob declared → StorageClass.ofDeclared? declared = some .real) ∧
    (∀ column : ColumnInfo, column.IsUntagged →
      (columnField? column = (Affinity.ofDeclared column.declaredType).field? column.name ↔
        ¬IsRealBlob column.declaredType) ∧
      (IsRealBlob column.declaredType → columnField? column = Affinity.real.field? column.name)) ∧
    ((∀ c ∈ columns, c.IsUntagged → ¬IsRealBlob c.declaredType) →
      fieldsOfColumns columns = .ofList (columns.filterMap affinityField?)) := by
  refine ⟨StorageClass.ofDeclared?_eq_storageClass?_iff, ?_, ?_, ?_⟩
  · intro hblob
    rw [StorageClass.ofDeclared?_eq, if_pos hblob]
  · intro column huntagged
    rw [huntagged.columnField?_eq]
    by_cases hblob : IsRealBlob column.declaredType
    · simp [hblob, hblob.1, field?]
    · simp [hblob]
  · intro hcolumns
    rw [fieldsOfColumns]
    refine congrArg _ (List.filterMap_congr fun c hc => ?_)
    unfold affinityField?
    by_cases huntagged : c.IsUntagged
    · rw [if_pos huntagged, huntagged.columnField?_eq, if_neg (hcolumns c hc huntagged)]
    · rw [if_neg huntagged]

/-- Columns with declared types that have several marks, or none. -/
def mixedColumns : List ColumnInfo :=
  [⟨idName, "INTEGER", true⟩, ⟨"owner", "floating point", false⟩, ⟨"note", "Text Blob", false⟩,
    ⟨"weight", "Double Precision", false⟩, ⟨"photo", "blob", false⟩, ⟨"price", "DECIMAL(10,5)", false⟩,
    ⟨"any", "", false⟩, ⟨"seen::date", "BLOB REAL", false⟩]

theorem fieldsOfColumns_affinity_mixed :
    (∀ c ∈ mixedColumns, c.IsUntagged → ¬IsRealBlob c.declaredType) ∧
      mixedColumns.map (fun c => Affinity.ofDeclared c.declaredType)
        = [.integer, .integer, .text, .real, .blob, .numeric, .blob, .blob] ∧
      (fieldsOfColumns mixedColumns).specs.map (fun f => (f.name, f.type))
        = [("owner", .reference), ("note", .string), ("weight", .number), ("seen", .date)] := by
  obtain ⟨-, -, -, hfields⟩ := fieldsOfColumns_affinity "" mixedColumns
  have hplain : ∀ c ∈ mixedColumns, c.IsUntagged → ¬IsRealBlob c.declaredType := by
    decide +kernel
  refine ⟨hplain, by decide +kernel, ?_⟩
  rw [hfields hplain]
  decide +kernel

/-- A blob by the rules, whose class is real, and which is read as a number. -/
theorem ofDeclared?_ne_storageClass?_blobReal :
    Affinity.ofDeclared "BLOB REAL" = .blob ∧
      StorageClass.ofDeclared? "BLOB REAL" ≠ (Affinity.ofDeclared "BLOB REAL").storageClass? ∧
      columnField? ⟨"photo", "BLOB REAL", false⟩ ≠ Affinity.blob.field? "photo" := by
  decide +kernel

end RecordMapping
