import Mathlib.Data.List.Nodup
import RecordMapping.Proofs.Field.Set
import RecordMapping.Proofs.Schema.Engine

/-!
# Columns name their fields

Reading the columns of a table undoes naming them: name and type of a field come back from its
column, so that a table which was made for some fields has these fields in their order
(`fieldsOfColumns_columnInfo`). What a column cannot carry is lost, which is whether the field is
required and what it refers to.
-/

namespace RecordMapping

/-! ## One column -/

/-- A class of columns is known by its keyword. -/
theorem StorageClass.ofDeclared?_keyword (storage : StorageClass) :
    ofDeclared? storage.keyword = some storage := by
  cases storage <;> decide

/-- The column of a field with a mark is taken apart into name and type. -/
theorem splitColumn_physicalName {name : String} {type : FieldType}
    (h : type.isPrimitive = false) : splitColumn (physicalName name type) = (name, some type) := by
  rw [physicalName, h]
  exact splitColumn_tagged name type

/-- The column of a number or text field keeps its name, unless this ends like a marked one. -/
theorem splitColumn_physicalName_iff {name : String} {type : FieldType}
    (h : type.isPrimitive = true) :
    splitColumn (physicalName name type) = (name, none) ↔
      ¬∃ (front : String) (mark : FieldType), name = front ++ "::" ++ mark.tag := by
  rw [physicalName, if_pos h, splitColumn_eq_none_iff]
  simp only [not_exists]

namespace FieldSpec

/-- A field as it is found in its column. -/
def found (field : FieldSpec) : FieldSpec :=
  { name := field.name, type := field.type, required := false }

variable {field : FieldSpec}

/-- A field is found in the column that was made for it. -/
theorem Discoverable.columnField?_columnInfo (h : field.Discoverable) :
    columnField? field.columnInfo = some field.found := by
  have hcolumn : field.column = physicalName field.name field.type := by
    rw [column, h.physical, Option.getD_none]
  unfold columnField? columnInfo
  rw [if_neg h.column_ne, hcolumn]
  simp only [StorageClass.ofDeclared?_keyword]
  cases hprimitive : field.type.isPrimitive with
  | false =>
    rw [splitColumn_physicalName hprimitive]
    rfl
  | true =>
    have hplain := h.unmarked hprimitive
    rw [physicalName, if_pos hprimitive, splitColumn_eq_none_iff.2 hplain]
    -- only numbers and texts are left, and the class of their columns tells them apart
    unfold found
    cases htype : field.type with
    | number | string => rfl
    | boolean | date | object | array | reference =>
      rw [htype] at hprimitive
      cases hprimitive

end FieldSpec

/-! ## The columns of a set -/

/-- A field of a new name is put at the end. -/
theorem putSpec_of_notMem {field : FieldSpec} {specs : List FieldSpec}
    (h : field.name ∉ specNames specs) : putSpec field specs = specs ++ [field] := by
  induction specs with
  | nil => rfl
  | cons f rest ih =>
    rw [specNames_cons, List.mem_cons, not_or] at h
    rw [putSpec, if_neg (Ne.symm h.1), ih h.2, List.cons_append]

namespace FieldSet

/-- Fields of new names are put one after the other at the end. -/
theorem specs_foldl_insert {specs : List FieldSpec} {fields : FieldSet}
    (h : (fields.names ++ specNames specs).Nodup) :
    (specs.foldl insert fields).specs = fields.specs ++ specs := by
  induction specs generalizing fields with
  | nil => rw [List.foldl_nil, List.append_nil]
  | cons f rest ih =>
    have hfresh : f.name ∉ fields.names := by
      intro hmem
      exact List.disjoint_of_nodup_append h hmem List.mem_cons_self
    have hnames : (fields.insert f).names = fields.names ++ [f.name] := by
      rw [names_insert, if_neg hfresh]
    have hspecs : (fields.insert f).specs = fields.specs ++ [f] := putSpec_of_notMem hfresh
    rw [List.foldl_cons, ih, hspecs, List.append_assoc, List.singleton_append]
    rwa [hnames, List.append_assoc, List.singleton_append]

/-- Fields with distinct names are a set as they are. -/
theorem specs_ofList {specs : List FieldSpec} (h : (specNames specs).Nodup) :
    (ofList specs).specs = specs := specs_foldl_insert h

variable {fields : FieldSet}

/-- Fields that are found by their columns have columns of their own. -/
theorem nodup_columns (h : ∀ f ∈ fields.specs, f.Discoverable) : fields.columns.Nodup := by
  -- the name of a field is read off its column, and the names are distinct
  have hnames : fields.columns.map (fun column => (splitColumn column).1) = fields.names := by
    rw [columns, List.map_map]
    exact List.map_congr_left fun f hf => (h f hf).splitColumn_fst
  refine List.Nodup.of_map (fun column => (splitColumn column).1) ?_
  rw [hnames]
  exact fields.nodup

end FieldSet

/-- A marked column gives the name and the type that it was made from, and one without a mark its
own name, unless this ends like a marked one. So fields without physical names, none of which has
the name of the identifier or, without a mark, a name that ends like a marked one, have columns of
their own; and they are found again in these columns, in the same order, as optional fields that
refer to no table. -/
theorem fieldsOfColumns_columnInfo :
    (∀ (name : String) (type : FieldType), type.isPrimitive = false →
      splitColumn (physicalName name type) = (name, some type)) ∧
    (∀ (name : String) (type : FieldType), type.isPrimitive = true →
      (splitColumn (physicalName name type) = (name, none) ↔
        ¬∃ (front : String) (mark : FieldType), name = front ++ "::" ++ mark.tag)) ∧
    ∀ fields : FieldSet, (∀ f ∈ fields.specs, f.Discoverable) →
      fields.columns.Nodup ∧
      ∀ identifier : ColumnInfo, identifier.name = idName →
        (fieldsOfColumns (identifier :: fields.specs.map FieldSpec.columnInfo)).specs
          = fields.specs.map FieldSpec.found := by
  refine ⟨fun _ _ => splitColumn_physicalName, fun _ _ => splitColumn_physicalName_iff, ?_⟩
  intro fields hfields
  refine ⟨FieldSet.nodup_columns hfields, ?_⟩
  intro identifier hid
  have hfound : (identifier :: fields.specs.map FieldSpec.columnInfo).filterMap columnField?
      = fields.specs.map FieldSpec.found := by
    have hskip : columnField? identifier = none := if_pos hid
    rw [List.filterMap_cons_none hskip, List.filterMap_map, ← List.filterMap_eq_map]
    exact List.filterMap_congr fun f hf => (hfields f hf).columnField?_columnInfo
  have hnames : specNames (fields.specs.map FieldSpec.found) = fields.names := by
    rw [specNames, List.map_map]
    rfl
  rw [fieldsOfColumns, hfound, FieldSet.specs_ofList]
  rw [hnames]
  exact fields.nodup

/-- Names with colons at their ends and with the names of types in them. -/
def colonNames : FieldSet :=
  ⟨[{ name := "a:", type := .date }, { name := "a::date", type := .object },
    { name := "date::b", type := .number }, { name := "::", type := .string }], by decide⟩

theorem fieldsOfColumns_columnInfo_colonNames :
    (∀ f ∈ colonNames.specs, f.Discoverable) ∧
      colonNames.columns = ["a:::date", "a::date::object", "date::b", "::"] ∧
      colonNames.columns.Nodup ∧
      (fieldsOfColumns (createdColumns colonNames)).specs
        = colonNames.specs.map FieldSpec.found := by
  have hfields : ∀ f ∈ colonNames.specs, f.Discoverable := by
    intro f hf
    have hplain : splitColumn f.name = (f.name, none) ∨ f.type.isPrimitive = false := by
      revert f
      decide +kernel
    refine ⟨?_, ?_, ?_⟩
    · revert f
      decide
    · revert f
      decide
    · intro hprimitive
      refine splitColumn_eq_none_iff.1 (hplain.resolve_right ?_)
      rw [hprimitive]
      decide
  have hread := fieldsOfColumns_columnInfo.2.2 colonNames hfields
  exact ⟨hfields, by decide +kernel, hread.1, hread.2 _ rfl⟩

end RecordMapping
